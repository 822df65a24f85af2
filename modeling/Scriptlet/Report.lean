import Scriptlet.Table
import Scriptlet.Text.Quoted
import Scriptlet.Text.Style
import Scriptlet.Text.Template

/-! Reports of failures.  A `Handler` keeps for each file the line that is being run, reports what interrupts a run
under these lines, and decides whether the interruption goes on. -/
namespace Scriptlet
open Text

/-- A failure to report: a message, details that follow it line by line, and whether the program itself is at fault. -/
structure Failure where
  message : String
  details : List String
  internal : Bool
deriving DecidableEq, Repr

/-- An error that no one expected, by the name of its kind and what it says. -/
structure InternalError where
  kind : String
  text : String
deriving DecidableEq, Repr

namespace InternalError

def value (text : String) : InternalError := ⟨"ValueError", text⟩

def key (name : String) : InternalError := ⟨"KeyError", quoted name⟩

def place (text : String) : InternalError := ⟨"IndexError", text⟩

def overflow (text : String) : InternalError := ⟨"OverflowError", text⟩

def ofTemplate (e : TemplateError) : InternalError :=
  match e with
  | .unknownName name => key name
  | .missing _ | .noCharacter => place e.message
  | .notPlace => ⟨"TypeError", e.message⟩
  | .noMember _ => ⟨"AttributeError", e.message⟩
  | .layout .tooWide => ⟨"MemoryError", e.message⟩
  | _ => value e.message

end InternalError

/-- What can end a run early. -/
inductive Interruption
  | failure (f : Failure)
  | exit (code : String)
  /-- Something nests too deep. -/
  | nesting
  | keyboard
  | internal (e : InternalError)
deriving DecidableEq, Repr

namespace Failure

def plain (message : String) : Failure := ⟨message, [], false⟩

/-- A failure whose message is a template about parts of a program.  Without parts the template is the message. -/
def ofTemplate? (style : Style) (template : String) (parts details : List String) (internal : Bool) :
    Except InternalError Failure :=
  if parts.isEmpty then .ok ⟨template, details, internal⟩
  else
    match fill template (parts.map style.strong) with
    | .ok message => .ok ⟨message, details, internal⟩
    | .error e => .error (.ofTemplate e)

end Failure

def Interruption.ofTemplate (style : Style) (template : String) (parts details : List String) : Interruption :=
  match Failure.ofTemplate? style template parts details false with
  | .ok f => .failure f
  | .error e => .internal e

abbrev LineNumber := Int

structure Line where
  text : String
  number : LineNumber
deriving DecidableEq, Repr

structure Handler where
  /-- Whether a report ends the program. -/
  fatal : Bool
  style : Style
  /-- For each file, in the order in which they became known, the line that is being run. -/
  traceback : Table String (Option Line)

namespace Handler

def new (fatal : Bool) (style : Style) : Handler := ⟨fatal, style, []⟩

def registerFile (h : Handler) (path : String) : Handler := { h with traceback := h.traceback.put path none }

def registerLine (h : Handler) (path : String) (line : Line) : Handler :=
  { h with traceback := h.traceback.put path (some line) }

def removeLine (h : Handler) (path : String) : Handler := { h with traceback := h.traceback.put path none }

/-- Forgets all lines and no file. -/
def clear (h : Handler) : Handler := { h with traceback := h.traceback.map fun (path, _) => (path, none) }

/-- A line as a report shows it.  Nothing is shown of a file without a line, or of an empty one. -/
def entryText : String × Option Line → String
  | (path, some line) =>
    if line.text.isEmpty then ""
    else "  File '" ++ path ++ "', line " ++ toString line.number ++ ":\n    " ++ line.text ++ "\n"
  | (_, none) => ""

def places (h : Handler) : String := String.join (h.traceback.map entryText)

def report (h : Handler) (f : Failure) : String :=
  h.places ++ (if f.internal then h.style.alarming "[internal] " else "") ++ h.style.alarming "error: " ++
    f.message ++ String.join (f.details.map ("\n\t" ++ ·)) ++ "\n"

/-- What has come of an interruption, with what is left of it to go on. -/
structure Handled where
  printed : String
  handler : Handler
  escaped : Option Interruption

/-- Reports a failure.  A fatal handler then ends the program, any other one starts afresh. -/
def throw (h : Handler) (f : Failure) : Handled :=
  if h.fatal then ⟨h.report f, h, some (.exit "1")⟩ else ⟨h.report f, h.clear, none⟩

/-- Deals with what interrupted a run.  Errors that no one expected go on even after their report. -/
def handle (h : Handler) : Interruption → Handled
  | .failure f => h.throw f
  | .nesting => h.throw (.plain "maximum recursion depth exceeded")
  | .keyboard => h.throw (.plain "keyboard interrupt")
  | .exit code => ⟨"", h, some (.exit code)⟩
  | .internal e =>
    let handled := h.throw ⟨"unknown error: '" ++ e.kind ++ ": " ++ e.text ++ "'", [], true⟩
    { handled with escaped := some (handled.escaped.getD (.internal e)) }

end Handler
end Scriptlet
