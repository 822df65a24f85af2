import Scriptlet.Launch

/-! The program itself: runs a file, or reads lines as they are typed in. -/
open Scriptlet

namespace Scriptlet.Main

def terminal : Text.Style where
  strong s := "\x1b[1m" ++ s ++ "\x1b[0m"
  alarming s := "\x1b[1m\x1b[31m" ++ s ++ "\x1b[0m"

def readFile? (path : String) : IO (Option String) := do
  try
    return some (← IO.FS.readFile path)
  catch _ =>
    return none

def flush (sh : Shell) : IO Shell := do
  let out ← IO.getStdout
  out.putStr sh.session.state.printed
  out.flush
  return { sh with session := { sh.session with state := { sh.session.state with printed := "" } } }

/-- Answers line after line as they come in. -/
partial def converse (sh : Shell) : IO Nat := do
  let sh ← flush sh.ask
  let line ← (← IO.getStdin).getLine
  let typed := if line.isEmpty then "EOF" else line
  let response := sh.respond typed.toList
  let sh ← flush response.shell
  if response.stop then
    return (Launch.finish response.escaped sh.session).status
  else
    converse sh

def conclude (f : Finish) : IO UInt32 := do
  IO.print f.printed
  return f.status.toUInt32

def run (args : List String) : IO UInt32 := do
  let style := if ← (← IO.getStdout).isTty then terminal else .plain
  let handler := Handler.new true style
  match Launch.plan (.usual style fun _ => none) args with
  | .error f => conclude f
  | .ok (.file path mode settings) =>
    let content ← readFile? path
    conclude (Launch.runFile (fun _ => content) handler path mode settings)
  | .ok (.shell mode settings) =>
    match Launch.openShell handler mode settings with
    | .error f => conclude f
    | .ok sh => return (← converse sh).toUInt32

end Scriptlet.Main

def main (args : List String) : IO UInt32 := Scriptlet.Main.run args
