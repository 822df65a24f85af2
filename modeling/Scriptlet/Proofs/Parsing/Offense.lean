import Mathlib
import Scriptlet.Proofs.Parsing.Completion
import Scriptlet.Proofs.Parsing.Exactness
import Scriptlet.Proofs.Tokens.Respelling

/-! Where the parser fails.  The token it fails at is the first offending one: the tokens before it start some program,
and with it they start none. -/
namespace Scriptlet

/-- How many tokens stand before the current one; at the end of the input, all of them. -/
def Cursor.position (c : Cursor) (tokens : List Token) : Nat :=
  if c.current = .eof then tokens.length else tokens.length - c.ahead.length - 1

theorem Input.ahead_after (input : Input) (k : Nat) : (input.advance.after k).ahead = input.ahead.drop (k + 1) := by
  induction k with
  | zero => exact List.drop_one.symm
  | succ k ih =>
    have hstep : (input.advance.after (k + 1)).ahead = (input.advance.after k).ahead.tail := rfl
    rw [hstep, ih, List.tail_drop]

theorem Input.current_after (input : Input) (k : Nat) : (input.advance.after k).current = input.ahead[k]?.getD .eof := by
  cases k with
  | zero => exact congrArg (Option.getD · Token.eof) List.head?_eq_getElem?
  | succ k =>
    have hstep : (input.advance.after (k + 1)).current = (input.advance.after k).ahead.head?.getD .eof := rfl
    rw [hstep, ahead_after, List.head?_drop]

namespace Cursor
variable {c : Cursor} {tokens w : List Token}

theorem position_eq {i : Nat} (h : c = (Input.ofTokens tokens).advance.after i)
    (hcurrent : c.current ≠ .eof) : i < tokens.length ∧ c.position tokens = i := by
  have hahead : c.ahead = tokens.drop (i + 1) := by
    rw [h]
    exact Input.ahead_after (Input.ofTokens tokens) i
  have hi : i < tokens.length := by
    by_contra hle
    have hnone : (Input.ofTokens tokens).ahead[i]? = none := List.getElem?_eq_none (Nat.not_lt.mp hle)
    refine hcurrent ?_
    rw [h, Input.current_after, hnone, Option.getD_none]
  rw [position, if_neg hcurrent, hahead, List.length_drop]
  exact ⟨hi, by omega⟩

theorem take_position (hpast : Grammar.IsPast c w tokens) (heof : ∀ t ∈ tokens, t.kind ≠ .eof) :
    tokens.take (c.position tokens) = w ∧
      (c.current ≠ .eof → tokens[c.position tokens]? = some c.current) := by
  rcases hpast with rfl | ⟨rfl, hcurrent⟩
  · have hcurrent : c.current ≠ .eof := fun hcurrent =>
      heof c.current (by simp) (congrArg Token.kind hcurrent)
    have hposition : c.position (w ++ c.current :: c.ahead) = w.length := by
      rw [position, if_neg hcurrent, List.length_append, List.length_cons]
      omega
    simp [hposition]
  · have hposition : c.position tokens = tokens.length := if_pos hcurrent
    simp [hposition, hcurrent]

end Cursor

namespace Grammar
open Token

theorem closed_filler (kind : Kind) : ∃ cs, Closed (filler kind) cs := by
  have hname : Spells ⟨Kind.ofWord (.ofList ['x']), .ofList ['x']⟩ ['x'] continuesWord := .word (by decide) (by simp)
  cases kind
  case assign => exact ⟨['='], .spelled (.alone (c := '=') (e := ⟨.assign, '=', .eq⟩) rfl)⟩
  case lparen => exact ⟨['('], .spelled (.symbol (c := '(') rfl)⟩
  case rparen => exact ⟨[')'], .spelled (.symbol (c := ')') rfl)⟩
  case rsquare => exact ⟨[']'], .spelled (.symbol (c := ']') rfl)⟩
  case lbrace => exact ⟨['\x7b'], .spelled (.symbol (c := '\x7b') rfl)⟩
  case rbrace => exact ⟨['\x7d'], .spelled (.symbol (c := '\x7d') rfl)⟩
  all_goals exact ⟨['x'], .spelled hname⟩

/-- The start of a program can be completed to a text of one. -/
theorem exists_completed {source : List Char} {w : List Token} {kinds : List Kind} {p : Node}
    (h : Yields (.program p) (w ++ kinds.map filler)) (hw : ∀ t ∈ w, t ∈ ofSource source) :
    ∃ completed : String, Program.parse completed = .ok p ∧ w <+: ofSource completed.toList := by
  have hclosed : ∀ t ∈ w ++ kinds.map filler, ∃ cs, Closed t cs := by
    intro t ht
    rcases List.mem_append.mp ht with hmem | hmem
    · rcases exists_spells_of_mem_tokens (hw t hmem) with hillegal | ⟨cs, more, hs⟩
      · exact (h.kind_not_mem_unwritten t ht (by simp [hillegal, unwritten])).elim
      · exact ⟨cs, .spelled hs⟩
    · obtain ⟨kind, -, rfl⟩ := List.mem_map.mp hmem
      exact closed_filler kind
  obtain ⟨cs, hcs⟩ := exists_source hclosed
  refine ⟨.ofList cs, ?_, ?_⟩
  · rw [parse_eq_ok_iff_yields, String.toList_ofList, hcs]
    exact h
  · rw [String.toList_ofList, hcs]
    exact List.prefix_append _ _

/-- A failure is reported at the first offending token.  The tokens before its place are those that a text starts with
which does parse.  If the input does not end there, no tokens that start with these and the next one parse, whatever else
follows: they fail for the same cause, which is the first message. -/
theorem parse_fails_at_offending_token {source : String} {f : Parser.Progress}
    (h : Program.parse source = .error (.refused f)) :
    let tokens := ofSource source.toList
    let i := f.place.position tokens
    (∃ completed p, Program.parse completed = .ok p ∧ tokens.take i <+: ofSource completed.toList) ∧
      (f.place.current ≠ .eof → tokens[i]? = some f.place.current ∧
        ∀ tokens', tokens.take (i + 1) <+: tokens' → ∃ f', Program.ofTokens tokens' = .error (.refused f') ∧
          f'.cause = f.cause ∧ f'.messages.head? = f.messages.head?) := by
  intro tokens i
  obtain ⟨e, hprogram, herrors⟩ := Program.ofTokens_eq_refused.mp h
  obtain ⟨w, kinds, p, hpast, hy⟩ := program_completes hprogram
  obtain ⟨hw, hcurrent⟩ := Cursor.take_position hpast fun t ht => kind_ne_eof_of_mem_tokens ht
  refine ⟨?_, fun hne => ⟨hcurrent hne, fun tokens' htokens' => ?_⟩⟩
  · obtain ⟨completed, hparse, hprefix⟩ := exists_completed hy fun t ht => List.mem_of_mem_take (hw ▸ ht)
    exact ⟨completed, p, hparse, hw ▸ hprefix⟩
  · obtain ⟨j, hplace, hlocal⟩ := Attempt.program_local hprogram
    obtain ⟨hj, hposition⟩ := Cursor.position_eq hplace hne
    obtain ⟨⟨_, place⟩, hprogram', rfl⟩ := hlocal tokens' hj (hposition ▸ htokens')
    refine ⟨_, Program.ofTokens_refused hprogram', ?_, ?_⟩
    · simp [Parser.Progress.cause, herrors]
    · simp [Parser.Progress.messages, herrors]

def unassigned : List Token := [⟨.letWord, "let"⟩, ⟨.identifier, "x"⟩, ⟨.int, "5"⟩]

set_option maxRecDepth 8000 in
theorem unassigned_fails_at_value :
    ∃ f, Program.parse "let x 5 y" = .error (.refused f) ∧ f.place.current = ⟨.int, "5"⟩ ∧
      f.place.position (ofSource "let x 5 y".toList) = 2 ∧
      (∃ completed p, Program.parse completed = .ok p ∧ unassigned.take 2 <+: ofSource completed.toList) ∧
      ∀ tokens', unassigned <+: tokens' → ∃ f', Program.ofTokens tokens' = .error (.refused f') ∧
        f'.messages.head? = some "Unexpected token (INT, '5'), expected ASSIGN" := by
  have htokens : ofSource "let x 5 y".toList = unassigned ++ [⟨.identifier, "y"⟩] := by cbv
  have hparse : Program.parse "let x 5 y" = .error (.refused ⟨⟨⟨[⟨.identifier, "y"⟩], 4⟩, ⟨.int, "5"⟩⟩,
      [.construct (.unexpected ⟨.int, "5"⟩ .assign), .unfinished ⟨.int, "5"⟩ ⟨.identifier, "y"⟩]⟩) := by cbv
  have hfails := parse_fails_at_offending_token hparse
  rw [htokens] at hfails ⊢
  obtain ⟨hbefore, hafter⟩ := hfails
  refine ⟨_, hparse, rfl, rfl, hbefore, fun tokens' htokens' => ?_⟩
  obtain ⟨-, hsame⟩ := hafter (by decide)
  obtain ⟨f', hf', -, hmessage⟩ := hsame tokens' htokens'
  exact ⟨f', hf', hmessage.trans (by decide)⟩

end Grammar
end Scriptlet
