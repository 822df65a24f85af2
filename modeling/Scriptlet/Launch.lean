import Scriptlet.CommandLine
import Scriptlet.Shell

/-! Whole runs of the program: from its arguments, the files it may read and the lines typed in to its output and exit
status. -/
namespace Scriptlet
open Text

structure Finish where
  status : Nat
  printed : String
deriving DecidableEq, Repr

/-- What a run depends on besides its arguments and what is typed in. -/
structure Host where
  stack : Stack
  /-- The frames that a recursion limit leaves to a unit of a file, or to a typed one.  Under a limit that is too low nothing
  starts at all. -/
  frames? : (typed : Bool) → (limit : Nat) → Option Nat
  /-- For how many rounds a loop may run before someone interrupts the program. -/
  patience : Nat
  style : Style
  read : String → Option String

def Host.settings (host : Host) (onEmpty : OnEmpty) (frames : Nat) : Settings :=
  ⟨onEmpty, host.stack, frames, host.patience⟩

/-- The frames that the usual host has taken before it comes to a unit. -/
def Host.framesBefore (typed : Bool) : Nat := if typed then 12 else 8

/-- The usual host, where no one interrupts a loop for a long time. -/
def Host.usual (style : Style) (read : String → Option String) : Host where
  stack := .usual
  frames? typed limit := if limit ≤ framesBefore typed then none else some (limit - framesBefore typed)
  patience := 1000000000000000
  style := style
  read := read

namespace Launch

/-- Sets the recursion limit; this gives the frames that it leaves. -/
def setLimit (host : Host) (typed : Bool) (limit : Int) : Except Interruption Nat :=
  if limit < -2147483648 ∨ 2147483648 ≤ limit then
    .error (.internal (.overflow "Python int too large to convert to C int"))
  else if limit < 1 then
    .error (.internal (.value "recursion limit must be greater or equal than 1"))
  else
    match host.frames? typed limit.toNat with
    | some frames => .ok frames
    | none => .error .nesting

/-- The end of a run that something interrupted before it had a session. -/
def finishEarly (handler : Handler) (e : Interruption) : Finish :=
  let handled := handler.handle e
  ⟨if handled.escaped.isSome then 1 else 0, handled.printed⟩

def finish (escaped : Option Interruption) (s : Session) : Finish :=
  ⟨if escaped.isSome then 1 else 0, s.state.printed⟩

def runFile (read : String → Option String) (handler : Handler) (path : String) (mode : Mode)
    (settings : Settings) : Finish :=
  let start := Session.start read handler path mode.name false settings
  match start.result with
  | .error e => finishEarly start.handler e
  | .ok s =>
    let (escaped, s) := s.runHandled
    finish escaped s

def openShell (handler : Handler) (mode : Mode) (settings : Settings) : Except Finish Shell :=
  let start := Session.start (fun _ => none) handler Session.typedPath mode.name true settings
  match start.result with
  | .error e => .error (finishEarly start.handler e)
  | .ok s => .ok ((Shell.new s).say Shell.intro)

def runInput (handler : Handler) (mode : Mode) (settings : Settings) (input : String) : Finish :=
  match openShell handler mode settings with
  | .error f => f
  | .ok sh =>
    let response := sh.converse (lines input.toList)
    finish response.escaped response.shell.session

inductive Plan
  | file (path : String) (mode : Mode) (settings : Settings)
  | shell (mode : Mode) (settings : Settings)

def plan (host : Host) (args : List String) : Except Finish Plan :=
  match CommandLine.parse args with
  | .error refusal => .error ⟨refusal.status, ""⟩
  | .ok options =>
    match setLimit host options.file.isNone options.recursionLimit with
    | .error e => .error (finishEarly (Handler.new true host.style) e)
    | .ok frames =>
      let settings := host.settings options.onEmpty frames
      match options.file with
      | some path => .ok (.file path options.mode settings)
      | none => .ok (.shell options.mode settings)

def launch (host : Host) (args : List String) (input : String) : Finish :=
  let handler := Handler.new true host.style
  match plan host args with
  | .error f => f
  | .ok (.file path mode settings) => runFile host.read handler path mode settings
  | .ok (.shell mode settings) => runInput handler mode settings input

end Launch
end Scriptlet
