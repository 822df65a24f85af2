import Scriptlet.Syntax.Parse

/-! Attempts to read something.  An attempt goes from one place to another, or it is refused for one cause at one place; it
keeps no list of errors and never runs out of room.  All procedures of the parser can be attempted. -/
namespace Scriptlet

/-- What ended an attempt, and where.  Without a cause it was the bound on nesting. -/
structure Refusal where
  cause : Option ParseError
  place : Cursor
deriving Repr

/-- Reading something from a place on. -/
def Attempt (α : Type) : Type := Cursor → Except Refusal (α × Cursor)

namespace Attempt
open Scriptlet.Parser

instance : Steps Attempt where
  pure a := fun c => .ok (a, c)
  bind p f := fun c =>
    match p c with
    | .ok (a, c') => f a c'
    | .error e => .error e
  current := fun c => .ok (c.current, c)
  peek := fun c => .ok (c.peek, c)
  ahead := fun c => .ok (c.ahead.length, c)
  advance := fun c => .ok ((), c.toInput.advance)
  fail e := fun c => .error ⟨some e, c⟩
  within _ p := p
  exhaust := fun c => .error ⟨none, c⟩

variable {α β : Type} {p : Attempt α} {f : α → Attempt β} {c c' : Cursor}

theorem bind_eq_ok {b : β} :
    (p >>= f) c = .ok (b, c') ↔ ∃ a c₁, p c = .ok (a, c₁) ∧ f a c₁ = .ok (b, c') := by
  simp only [bind]
  cases p c with
  | ok r =>
    refine ⟨fun h => ⟨r.1, r.2, rfl, h⟩, ?_⟩
    rintro ⟨_, _, he, h⟩
    cases he
    exact h
  | error e => simp

theorem bind_eq_error {e : Refusal} :
    (p >>= f) c = .error e ↔ p c = .error e ∨ ∃ a c₁, p c = .ok (a, c₁) ∧ f a c₁ = .error e := by
  simp only [bind]
  cases p c with
  | ok r =>
    refine ⟨fun h => .inr ⟨r.1, r.2, rfl, h⟩, ?_⟩
    rintro (he | ⟨_, _, he, h⟩)
    · cases he
    · cases he
      exact h
  | error e' => simp

@[simp] theorem within_eq (task : Task) (p : Attempt α) : within task p = p := rfl

@[simp] theorem inside_eq (inner : Part → Attempt Node) (site : Site) (q : Part) : inside inner site q = inner q := rfl

/-- Attempts to read statements to the end of the input.  With at most `bound` tokens ahead none is missed. -/
def untilEnd (inner : Part → Attempt Node) : (bound : Nat) → Input → Except Refusal (List Node × Input)
  | 0, input => .ok ([], input)
  | bound + 1, input =>
    if input.peek = .eof then .ok ([], input)
    else do
      let (first, place) ← statement inner input.advance
      let (others, rest) ← untilEnd inner bound place.toInput
      return (first :: others, rest)

def program (tokens : List Token) : Except Refusal (List Node × Input) :=
  untilEnd (part (tokens.length + 1)) tokens.length (Input.ofTokens tokens)

end Attempt
end Scriptlet
