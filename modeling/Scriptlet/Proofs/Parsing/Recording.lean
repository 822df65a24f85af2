import Scriptlet.Proofs.Parsing.Procedures

/-! The errors that parsing records: one by a procedure that gives up and none by any other, so that a text without a
program is never without an error, and one with a program never has any. -/
namespace Scriptlet
namespace Parser

/-- What a parser has recorded at its end: one error if it gives up, and otherwise none. -/
def Records {α : Type} (errors : List Entry) : Ending α × Progress → Prop
  | (.read _, after) => after.errors = errors
  | (.gaveUp, after) => ∃ e, after.errors = errors ++ [.construct e]
  | (.exhausted, after) => after.errors = errors

theorem Follows.records {α : Type} {limited : Prop} {room : Option Room} {errors : List Entry} {r : Ending α × Progress}
    {o : Except Refusal (α × Cursor)} (h : Follows limited room errors r o) : Records errors r := by
  cases h with
  | read => rfl
  | gaveUp e => exact ⟨e, rfl⟩
  | full => rfl
  | nested => rfl

end Parser

namespace Program
open Scriptlet.Parser Attempt
namespace Reading
variable {r : Reading} {p : Node}

theorem result_of_errors (hexhausted : r.exhausted = false) (herrors : r.progress.errors ≠ []) :
    r.result = .error (.refused r.progress) := by
  simp [result, hexhausted, herrors]

theorem result_eq_ok (hexhausted : r.exhausted = false) :
    r.result = .ok p ↔ r.progress.errors = [] ∧ p = .program r.body := by
  by_cases herrors : r.progress.errors = []
  · simp [result, hexhausted, herrors, eq_comm]
  · simp [result, hexhausted, herrors]

end Reading

/-- Either there are no errors and no tokens left, or there is one error about a construct, and one more if tokens are
left. -/
theorem errors_of_read {tokens : List Token} {r : Reading} (h : read none tokens = r) :
    let place := r.progress.place
    r.exhausted = false ∧ (r.progress.errors = [] ∧ place.peek = .eof ∨ ∃ e, r.progress.errors =
      .construct e :: if place.peek = .eof then [] else [.unfinished place.current place.peek]) := by
  have hends := Reading.ends_start none (Nat.lt_succ_self tokens.length) (Nat.le_refl _)
  rw [← h, read, ← Reading.start]
  generalize Reading.statements _ none _ _ = out at hends ⊢
  generalize program tokens = o at hends
  cases hends with
  | nothing hpeek =>
    rw [Reading.finish_of_end hpeek]
    exact ⟨rfl, .inl ⟨rfl, hpeek⟩⟩
  | read ss c _ _ hpeek =>
    rw [Reading.finish_of_end hpeek]
    exact ⟨rfl, .inl ⟨rfl, hpeek⟩⟩
  | stopped ss e c =>
    rw [Reading.finish_of_stopped]
    exact ⟨rfl, .inr ⟨e, rfl⟩⟩
  | full hroom => exact absurd rfl hroom

theorem messages_eq {s : Progress} {e : ParseError} (h : s.errors =
    .construct e :: if s.place.peek = .eof then [] else [.unfinished s.place.current s.place.peek]) :
    s.messages = e.message :: if s.place.peek = .eof then []
      else ["An error occurred while parsing program: current token is " ++ s.place.current.text ++
        ", peek token is " ++ s.place.peek.text] := by
  rw [Progress.messages, h, List.map_cons]
  split <;> rfl

/-- Parsing fails fast and never silently.  A procedure that gives up has recorded one error and any other none, wherever it
starts; and a text has a program or errors: one about a construct, and one more if tokens are left. -/
theorem parsing_records_one_error (source : String) :
    (∀ (p : Procedure) (bound : Nat) (room : Option Room) (before : Progress),
      Records before.errors ((p.parser (part bound) : Parser p.Result) room before)) ∧
    let r := read none (Token.ofSource source.toList)
    let place := r.progress.place
    r.exhausted = false ∧
    (∀ p, parse source = .ok p ↔ r.progress.errors = [] ∧ p = .program r.body) ∧
    (r.progress.errors = [] → place.peek = .eof) ∧
    (r.progress.errors ≠ [] → parse source = .error (.refused r.progress) ∧ ∃ e,
      r.progress.errors =
        .construct e :: (if place.peek = .eof then [] else [.unfinished place.current place.peek]) ∧
      r.progress.messages =
        e.message :: if place.peek = .eof then []
          else ["An error occurred while parsing program: current token is " ++ place.current.text ++
            ", peek token is " ++ place.peek.text]) := by
  refine ⟨fun p bound room before => (runs_procedure (runs_part bound) p room before).records, ?_⟩
  intro r place
  have hparse : parse source = r.result := rfl
  obtain ⟨hexhausted, herrors⟩ := errors_of_read (r := r) rfl
  clear_value r
  refine ⟨hexhausted, fun p => hparse ▸ Reading.result_eq_ok hexhausted, ?_⟩
  rcases herrors with ⟨hnone, hpeek⟩ | ⟨e, herrors⟩
  · exact ⟨fun _ => hpeek, fun hsome => (hsome hnone).elim⟩
  · have hsome : r.progress.errors ≠ [] := herrors ▸ List.cons_ne_nil _ _
    refine ⟨fun hnone => (hsome hnone).elim, fun _ => ⟨hparse ▸ Reading.result_of_errors hexhausted hsome, e, herrors,
      messages_eq herrors⟩⟩

end Program
end Scriptlet
