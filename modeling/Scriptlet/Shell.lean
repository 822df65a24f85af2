import Scriptlet.Session.Basic

/-! The interactive shell: lines typed in one by one, which it gathers into units and runs in a session.  A few
words are commands to the shell itself, whatever follows them. -/
namespace Scriptlet
open Text

inductive Command
  | nothing
  | help
  | exit
  | endOfInput
  | code (line : List Char)
deriving DecidableEq, Repr

namespace Command

def inWord (c : Char) : Bool := c.isAlphanum || c = '_'

/-- A question mark asks for help and an exclamation mark makes the line code.  Otherwise the word that the line
starts with decides. -/
def ofLine (line : List Char) : Command :=
  match trim line with
  | [] => nothing
  | '?' :: _ => help
  | '!' :: rest => code ('!' :: rest)
  | cs =>
    match String.ofList (cs.takeWhile inWord) with
    | "help" => help
    | "exit" => exit
    | "EOF" => endOfInput
    | _ => code cs

end Command

inductive Prompt
  | ready
  /-- The unit so far has open brackets. -/
  | continuing
deriving DecidableEq, Repr

def Prompt.text : Prompt → String
  | ready => ">> "
  | continuing => ".. "

structure Shell where
  session : Session
  /-- The unit that more lines are expected for. -/
  pending : List Char
  lineNumber : Nat
  prompt : Prompt

namespace Shell

def intro : String := "Simple interpreter :: Python backend\nType 'help' for more information."

def helpText : String :=
  "Welcome to the simple interpreter!\n\n" ++
  "Integers, booleans, strings, arrays and first-class functions are supported, along with\n" ++
  "'let' bindings, 'if'/'else', 'while', 'return' and closures. Statements need no separator.\n\n" ++
  "Try it out by typing 'let add = fn(a, b) \x7b a + b \x7d' and then 'add(1, 2)'.\n" ++
  "Lines with unbalanced brackets are continued on the next line.\n\n" ++
  "Builtin functions:" ++ String.join (Builtin.all.map fun b => "\n  " ++ b.usage)

def new (session : Session) : Shell := ⟨session, [], 0, .ready⟩

def say (sh : Shell) (text : String) : Shell :=
  { sh with session := { sh.session with state := sh.session.state.print text } }

def ask (sh : Shell) : Shell :=
  { sh with session := { sh.session with state :=
    { sh.session.state with printed := sh.session.state.printed ++ sh.prompt.text } } }

/-- Adds a line to the unit that is typed in, and gives the unit once its brackets are closed. -/
def gather (sh : Shell) (line : List Char) : Option (List Char) × Shell :=
  let number := sh.lineNumber + 1
  let unit := SourceUnit.join sh.pending line
  if SourceUnit.hasOpenBrackets unit then
    (none, { sh with lineNumber := number, pending := unit, prompt := .continuing })
  else
    (some unit, { sh with lineNumber := number, pending := [], prompt := .ready })

structure Response where
  stop : Bool
  escaped : Option Interruption
  shell : Shell

section
variable {m : Type → Type} [Monad m] (run : Session → m (Option Interruption × Session))

def runUnit (sh : Shell) (unit : List Char) : m (Option Interruption × Shell) := do
  let (escaped, session) ← run (sh.session.add (String.ofList unit) sh.lineNumber)
  return (escaped, { sh with session })

def typed (sh : Shell) (line : List Char) : m (Option Interruption × Shell) :=
  match sh.gather line with
  | (none, after) => return (none, after)
  | (some unit, after) => after.runUnit run unit

/-- Answers a line, and leaves it to `run` to run the session. -/
def respondBy (sh : Shell) (line : List Char) : m Response :=
  match Command.ofLine line with
  | .nothing => return ⟨false, none, sh⟩
  | .help => return ⟨false, none, sh.say helpText⟩
  | .exit => return ⟨true, none, sh⟩
  | .endOfInput => return ⟨true, none, sh.say ""⟩
  | .code cs => do
    let (escaped, after) ← sh.typed run cs
    return ⟨escaped.isSome, escaped, after⟩

/-- Reads lines until one stops the shell; the end of the input is a line that does. -/
def converseBy (sh : Shell) : List (List Char) → m Response
  | [] => sh.ask.respondBy run "EOF".toList
  | line :: rest => do
    let response ← sh.ask.respondBy run line
    if response.stop then return response else response.shell.converseBy rest

end

def respond (sh : Shell) (line : List Char) : Response := Id.run (sh.respondBy (pure ·.runHandled) line)

def converse (sh : Shell) (lines : List (List Char)) : Response := Id.run (sh.converseBy (pure ·.runHandled) lines)

end Shell
end Scriptlet
