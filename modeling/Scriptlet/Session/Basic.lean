import Scriptlet.Eval.Basic
import Scriptlet.Report
import Scriptlet.Session.SourceUnit
import Scriptlet.Syntax.Parse
import Scriptlet.Text.Lines

/-! Sessions: a queue of units and the state that running them changes.  A session lists the tokens of its units, shows
their syntax trees or evaluates them, as its mode says. -/
namespace Scriptlet

inductive Mode
  | lexer | parser | evaluator
deriving DecidableEq, Repr

namespace Mode

def all : List Mode := [lexer, parser, evaluator]

def name : Mode → String
  | lexer => "lexer"
  | parser => "parser"
  | evaluator => "evaluator"

def ofName? (s : String) : Option Mode := all.find? (·.name = s)

end Mode

def Settings.room (settings : Settings) : Parser.Room := ⟨settings.stack, settings.frames⟩

/-- Units to run, and what running them changes. -/
structure Session where
  handler : Handler
  path : String
  mode : Mode
  settings : Settings
  /-- The state of the programs.  All output of the session goes to what it has printed. -/
  state : State
  /-- The units that wait to be run, by line number. -/
  queue : Table LineNumber String

namespace Session

/-- Stands for the lines that are typed in, and names no file. -/
def typedPath : String := "<in>"

/-- Queues a unit; one that is queued already for the line is replaced. -/
def add (s : Session) (unit : String) (number : LineNumber) : Session :=
  { s with queue := s.queue.put number unit }

def addAll (s : Session) (units : List (Nat × List Char)) : Session :=
  units.foldl (fun s (number, unit) => s.add (String.ofList unit) number) s

def unitsOf (content : String) : List (Nat × List Char) :=
  SourceUnit.ofLines [] 0 (Text.lines (Text.unifyBreaks content.toList))

/-- How a session starts: with the handler as it became, and the session unless something interrupted. -/
structure Start where
  handler : Handler
  result : Except Interruption Session

/-- Starts a session on a file, which `read` looks up, or on lines to be typed in (`typed`), which no failure ends. -/
def start (read : String → Option String) (handler : Handler) (path mode : String) (typed : Bool)
    (settings : Settings) : Start :=
  match Mode.ofName? mode with
  | none => ⟨handler, .error (.ofTemplate handler.style "unknown mode '\x7b\x7d'" [mode] [])⟩
  | some mode =>
    let known := handler.registerFile path
    let handler := { known with fatal := known.fatal && !typed }
    let session : Session := ⟨handler, path, mode, settings, .initial, []⟩
    if path = typedPath then
      if typed then ⟨handler, .ok session⟩
      else ⟨handler, .error (.failure (.plain "'<in>' is a reserved filename"))⟩
    else
      match read path with
      | some content => ⟨handler, .ok (session.addAll (unitsOf content))⟩
      | none => ⟨handler, .error (.ofTemplate handler.style "'\x7b\x7d' could not be opened" [path] [])⟩

def describe (s : Session) (program : Node) : Except Interruption String :=
  if program.frames s.settings.stack.writingNodes ≤ s.settings.frames then .ok program.text else .error .nesting

def evaluate (s : Session) (program : Node) : Except Interruption String × Session :=
  let (result, state) := Eval.run s.settings State.globalScope program s.state
  let s := { s with state := state }
  match result with
  | .interrupted => (.error .keyboard, s)
  | .value (.error e) => (.error (.failure (.plain e.message)), s)
  | .value v =>
    match Run.textOf s.settings.stack s.settings.frames v state with
    | (.ok text, _) => (.ok text, s)
    | (.error _, _) => (.error .nesting, s)

def execute (s : Session) (unit : String) : Except Interruption String × Session :=
  match s.mode with
  | .lexer => (.ok ("\n".intercalate ((Token.ofSource unit.toList).map Token.text)), s)
  | .parser | .evaluator =>
    match Program.parseWithin s.settings.room unit with
    | .error .exhausted => (.error .nesting, s)
    | .error (.refused p) =>
      (.error (.ofTemplate s.handler.style "'\x7b\x7d' could not be parsed" [unit] p.messages), s)
    | .ok program => if s.mode = .parser then (s.describe program, s) else s.evaluate program

/-- Runs units in order and takes each off the queue, up to the first that is interrupted. -/
def runUnits : List (LineNumber × String) → Session → Option Interruption × Session
  | [], s => (none, s)
  | (number, unit) :: rest, s =>
    let s := { s with handler := s.handler.registerLine s.path ⟨unit, number⟩ }
    match s.execute unit with
    | (.error e, s) => (some e, { s with queue := s.queue.erase number })
    | (.ok text, s) =>
      runUnits rest { s with
        handler := s.handler.removeLine s.path
        state := s.state.print text
        queue := s.queue.erase number }

def run (s : Session) : Option Interruption × Session := runUnits s.queue s

def settle : Option Interruption × Session → Option Interruption × Session
  | (none, s) => (none, s)
  | (some e, s) =>
    let handled := s.handler.handle e
    (handled.escaped, { s with
      handler := handled.handler
      state := { s.state with printed := s.state.printed ++ handled.printed } })

def runHandled (s : Session) : Option Interruption × Session := settle s.run

end Session
end Scriptlet
