import Scriptlet.Proofs.Parsing.Calls
import Scriptlet.Proofs.Parsing.Exactness

/-! How parsing comes to its end.  Each call leaves less to do, so that calls do not go on for ever and nest no deeper than
some multiple of the number of tokens; each token is taken once, and none after the last. -/
namespace Scriptlet
namespace Parser

/-- The procedures whose activations are counted when they nest. -/
def Procedure.level : Procedure → Nat
  | .expression _ | .statement | .block => 1
  | _ => 0

namespace Activation
variable {v w : Activation} {k : Nat}

/-- Of the activations that are open at once somewhere in the course of one, itself included, `k` are counted. -/
inductive Nests : Activation → Nat → Prop
  | here {v : Activation} : Nests v v.procedure.level
  | inside {v w : Activation} {k : Nat} (hcall : v.Calls w) (h : Nests w k) : Nests v (v.procedure.level + k)

theorem level_le_one (p : Procedure) : p.level ≤ 1 := by
  cases p <;> simp [Procedure.level]

theorem Nests.le_weight (h : v.Nests k) : k ≤ v.weight + 1 := by
  induction h with
  | @here v => exact Nat.le_trans (level_le_one v.procedure) (Nat.le_add_left _ _)
  | @inside v w k hcall _ ih =>
    have hlevel := level_le_one v.procedure
    have hlt := hcall.weight_lt
    omega

/-- No activation is in the course of endless calls. -/
theorem wellFounded_calls : WellFounded fun w v : Activation => v.Calls w :=
  Subrelation.wf (fun h => h.weight_lt) (measure weight).wf

end Activation

end Parser

namespace Program
open Scriptlet.Parser Attempt

inductive Starts : Input → Activation → Prop
  | first {input : Input} (hpeek : input.peek ≠ .eof) : Starts input ⟨.statement, input.advance⟩
  | later {input : Input} {s : Node} {c : Cursor} {v : Activation} (hpeek : input.peek ≠ .eof)
    (hs : (statement anyPart : Attempt Node) input.advance = .ok (s, c)) (h : Starts c.toInput v) : Starts input v

theorem Starts.weight_le {input : Input} {v : Activation} (h : Starts input v) :
    v.weight ≤ 4 * input.ahead.length + 2 := by
  induction h with
  | @first input => exact Nat.add_le_add_right (Nat.mul_le_mul_left 4 (Cursor.left_advance_le input)) 2
  | later _ hs _ ih =>
    have hlt := ahead_lt_of_first hs
    omega

namespace Reading
variable {s : Progress} {input : Input} {r : Reading} {o : Except Refusal (List Node × Input)}

/-- What is reached from the first token has asked for each token that it has taken, and for the one after them. -/
theorem reads_of_reaches {c : Cursor} (h : input.advance.Reaches c) (heof : ∀ u ∈ input.ahead, u.kind ≠ .eof) :
    c.reads + c.left = input.reads + 1 + input.ahead.length ∧ ∀ u ∈ c.ahead, u.kind ≠ .eof := by
  obtain ⟨hreads, hrest⟩ := h.reads_add_left fun u hu => heof u (List.mem_of_mem_tail hu)
  rw [Cursor.left_advance_eq heof] at hreads
  exact ⟨hreads, hrest⟩

theorem reads_at_end {c : Cursor} (h : input.advance.Reaches c) (heof : ∀ u ∈ input.ahead, u.kind ≠ .eof)
    (hlive : 1 ≤ c.left) (hpeek : c.peek = .eof) : c.reads = input.reads + input.ahead.length := by
  obtain ⟨hreads, hrest⟩ := reads_of_reaches h heof
  have hleft : c.left = 1 := by
    rw [Cursor.left_eq (Cursor.left_pos_iff.mp hlive), Input.ahead_eq_nil hrest hpeek]
    rfl
  omega

/-- Where a reading ends, how many tokens it has asked for, and that it has come there by taking tokens. -/
structure Arrives (tokens : List Token) (r : Reading) : Prop where
  reads : match r.result with
    | .ok _ => r.progress.place.peek = .eof ∧ r.progress.place.reads = tokens.length + 1
    | .error stop => stop = .refused r.progress ∧ r.progress.place.reads ≤ tokens.length + 2
  place : r.progress.place.toInput = Input.ofTokens tokens ∨ ∃ k,
    r.progress.place = (Input.ofTokens tokens).advance.after k ∧
      ∀ j < k, ((Input.ofTokens tokens).advance.after j).current.kind ≠ .eof

theorem Ends.arrives {tokens : List Token} (h : Ends none [] (start tokens) r o)
    (heof : ∀ u ∈ tokens, u.kind ≠ .eof) : Arrives tokens r.finish := by
  cases h with
  | nothing hpeek =>
    have hnone : (Input.ofTokens tokens).ahead = [] := Input.ahead_eq_nil heof hpeek
    have hnone : tokens = [] := hnone
    subst hnone
    exact ⟨⟨rfl, rfl⟩, .inl rfl⟩
  | read ss c hreach hlive hpeek =>
    rw [finish_of_end hpeek]
    refine ⟨⟨hpeek, ?_⟩, .inr hreach.exists_after⟩
    exact (reads_at_end hreach heof hlive hpeek).trans (Nat.add_comm _ _)
  | stopped ss e c hreach =>
    rw [finish_of_stopped]
    have hreads : c.reads + c.left = 1 + 1 + tokens.length := (reads_of_reaches hreach heof).1
    have hle : c.reads ≤ tokens.length + 2 := by omega
    exact ⟨⟨rfl, hle⟩, .inr hreach.exists_after⟩
  | full hroom => exact absurd rfl hroom

end Reading

/-- Parsing ends, and on its way takes each token at most once.  Every procedure comes to the same end as with its calls
marked, the calls do not go on for ever, and larger bounds change nothing. -/
theorem parsing_takes_tokens_once (source : String) :
    (∀ (v : Activation) (errors : List Entry), Follows False none errors
      ((v.procedure.parser anyPart : Parser _) none ⟨v.place, errors⟩) (v.procedure.body.outcome v.place)) ∧
    WellFounded (fun w v : Activation => v.Calls w) ∧
    let tokens := Token.ofSource source.toList
    let start := Input.ofTokens tokens
    let r := read none tokens
    (∀ m k, tokens.length < m → tokens.length ≤ k →
      (Reading.statements (part m) none k ⟨[], Reading.start tokens, false⟩).finish.result = parse source) ∧
    (match parse source with
      | .ok _ => r.progress.place.peek = .eof ∧ r.progress.place.reads = tokens.length + 1
      | .error stop => stop = .refused r.progress ∧ r.progress.place.reads ≤ tokens.length + 2) ∧
    (r.progress.place.toInput = start ∨ ∃ k, r.progress.place = start.advance.after k ∧
      ∀ j < k, (start.advance.after j).current.kind ≠ .eof) ∧
    ∀ v, Starts start v → ∀ k, v.Nests k → k ≤ 4 * tokens.length + 3 := by
  refine ⟨fun v errors => ?_, Activation.wellFounded_calls, ?_⟩
  · rw [v.procedure.outcome_body]
    exact runs_procedure runs_anyPart v.procedure none ⟨v.place, errors⟩
  intro tokens start r
  have heof : ∀ u ∈ tokens, u.kind ≠ .eof := fun u hu => Token.kind_ne_eof_of_mem_tokens hu
  have harrives : Reading.Arrives tokens r :=
    (Reading.ends_start none (Nat.lt_succ_self _) (Nat.le_refl _)).arrives heof
  refine ⟨fun m k hm hk => ?_, ?_, harrives.place, fun v hv k hk => ?_⟩
  · have hresults := results_of_ends (Reading.ends_start none hm hk)
    exact (hresults.eq_or_exhausted (results_read none tokens)).resolve_right fun h => h.1 rfl
  · exact harrives.reads
  · exact Nat.le_trans hk.le_weight (Nat.succ_le_succ hv.weight_le)

end Program
end Scriptlet
