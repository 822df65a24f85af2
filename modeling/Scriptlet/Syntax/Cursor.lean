import Scriptlet.Stack

/-! Reading tokens one by one with one token of lookahead, and what can go wrong on the way.  A parser moves a `Cursor`
forward over the tokens, keeps a list of errors and takes up frames of the call stack. -/
namespace Scriptlet

/-- The tokens that are still ahead, and how many were asked for, the lookahead included. -/
structure Input where
  ahead : List Token
  reads : Nat
deriving DecidableEq, Repr

structure Cursor extends Input where
  current : Token
deriving DecidableEq, Repr

namespace Input

def ofTokens (tokens : List Token) : Input := ⟨tokens, 1⟩

/-- The next token without taking it; after the last one, the end-of-input token. -/
def peek (input : Input) : Token := input.ahead.head?.getD .eof

/-- Takes the next token.  At the end of the input there is nothing to take and the end stays current. -/
def advance (input : Input) : Cursor := ⟨⟨input.ahead.tail, input.reads + 1⟩, input.peek⟩

end Input

inductive ParseError
  | unexpected (found : Token) (expected : Kind)
  | noExpression (found : Token)
  | badInteger (found : Token)
  | notCallable (callee : Node)
  | notIndexable (target : Node)
deriving Repr

def ParseError.message : ParseError → String
  | unexpected found expected => "Unexpected token " ++ found.text ++ ", expected " ++ expected.name
  | noExpression found => "Unknown prefix function for expression: " ++ found.text
  | badInteger found => "not valid integer in current token: " ++ found.text
  | notCallable callee =>
    "Expected callable expression in left-hand side of call expression, got '" ++ callee.text ++ "'"
  | notIndexable target =>
    "Expected indexable expression in left-hand side of index expression, got '" ++ target.text ++ "'"

namespace Parser

inductive Task
  /-- All that is done for the part at a site. -/
  | part (site : Site)
  /-- What is done with a token. -/
  | token (t : Token)
  /-- Writing a node for a message. -/
  | text (n : Node)

/-- What procedures are made of that read tokens one by one. -/
class Steps (m : Type → Type) extends Monad m where
  current : m Token
  peek : m Token
  /-- The number of tokens ahead. -/
  ahead : m Nat
  advance : m Unit
  /-- Ends the procedure and all those around it over an error. -/
  fail {α : Type} (e : ParseError) : m α
  /-- Does what is part of a task, for which there has to be room. -/
  within {α : Type} (task : Task) (p : m α) : m α
  /-- Ends everything because there is no room left. -/
  exhaust {α : Type} : m α

export Steps (current peek ahead advance fail within exhaust)

section
variable {m : Type → Type} [Steps m] {α : Type}

/-- Checks the kind of the current token and stays on it. -/
def expect (kind : Kind) : m Unit := do
  let t ← current
  if t.kind = kind then return () else fail (.unexpected t kind)

def take (kind : Kind) : m Unit := do
  advance
  expect kind

/-- Runs a procedure that is told how many tokens are ahead. -/
def withAhead (p : Nat → m α) : m α := do p (← ahead)

end

/-- The frames of the call stack that are left. -/
structure Room where
  stack : Stack
  left : Nat

def Room.take? (room : Room) : Task → Option Room
  | .part site =>
    if room.stack.parsing.around site < room.left then
      some { room with left := room.left - (room.stack.parsing.around site + 1) }
    else none
  | .token t => if room.stack.parsing.own t < room.left then some room else none
  | .text n => if n.frames room.stack.writingNodes ≤ room.left then some room else none

/-- How a procedure ends.  One that gives up has nothing to tell; errors are recorded apart. -/
inductive Ending (α : Type)
  | read (a : α)
  | gaveUp
  | exhausted

inductive Entry
  | construct (e : ParseError)
  /-- Tokens are left when no more statements are read. -/
  | unfinished (current peek : Token)
deriving Repr

def Entry.message : Entry → String
  | construct e => e.message
  | unfinished current peek =>
    "An error occurred while parsing program: current token is " ++ current.text ++ ", peek token is " ++ peek.text

/-- What procedures change. -/
structure Progress where
  place : Cursor
  errors : List Entry

def Progress.record (s : Progress) (e : Entry) : Progress := { s with errors := s.errors ++ [e] }

def Progress.cause (s : Progress) : Option Entry := s.errors.head?

def Progress.messages (s : Progress) : List String := s.errors.map Entry.message

end Parser

/-- A procedure of the parser.  If nothing is said about room, there is as much as it takes. -/
def Parser (α : Type) : Type := Option Parser.Room → Parser.Progress → Parser.Ending α × Parser.Progress

namespace Parser

def record (e : Entry) : Parser Unit := fun _ s => (.read (), s.record e)

def giveUp {α : Type} : Parser α := fun _ s => (.gaveUp, s)

@[always_inline, inline]
protected def bind {α β : Type} (p : Parser α) (f : α → Parser β) : Parser β := fun room before =>
  match p room before with
  | (.read a, after) => f a room after
  | (.gaveUp, after) => (.gaveUp, after)
  | (.exhausted, after) => (.exhausted, after)

instance : Monad Parser where
  pure a := fun _ s => (.read a, s)
  bind := Parser.bind

instance : Steps Parser where
  current := fun _ s => (.read s.place.current, s)
  peek := fun _ s => (.read s.place.peek, s)
  ahead := fun _ s => (.read s.place.ahead.length, s)
  advance := fun _ s => (.read (), { s with place := s.place.toInput.advance })
  fail e := do
    record (.construct e)
    giveUp
  within task p := fun room s =>
    match room with
    | none => p none s
    | some room =>
      match room.take? task with
      | some left => p (some left) s
      | none => (.exhausted, s)
  exhaust := fun _ s => (.exhausted, s)

end Parser
end Scriptlet
