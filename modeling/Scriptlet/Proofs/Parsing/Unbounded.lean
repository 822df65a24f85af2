import Scriptlet.Proofs.Parsing.Progress

/-! Parsing without bounds.  The number of tokens left bounds how deep constructs nest and how often a loop goes round, so
the parser that takes it for its bounds satisfies the equations of the parsers as if there were none. -/
namespace Scriptlet

/-- A loop with a bound on its rounds, each of which goes on with something smaller: a bound of its size is as good as a
larger one. -/
structure Dwindles {σ ρ : Type} (size : σ → Nat) (round : (σ → ρ) → σ → ρ) (loop : Nat → σ → ρ) : Prop where
  succ (k : Nat) (s : σ) : loop (k + 1) s = round (loop k) s
  smaller {go go' : σ → ρ} {s : σ} : (∀ s', size s' < size s → go' s' = go s') → round go' s = round go s
  last {s : σ} (go : σ → ρ) : size s = 0 → round go s = loop 0 s

namespace Dwindles
variable {σ ρ : Type} {size : σ → Nat} {round : (σ → ρ) → σ → ρ} {loop : Nat → σ → ρ}

theorem loop_eq_loop (h : Dwindles size round loop) {k k' : Nat} {s : σ} (hk : size s ≤ k) (hk' : size s ≤ k') :
    loop k' s = loop k s := by
  induction k generalizing k' s with
  | zero =>
    have hzero : size s = 0 := Nat.le_zero.mp hk
    cases k' with
    | zero => rfl
    | succ k' => rw [h.succ, h.last _ hzero]
  | succ k ih =>
    cases k' with
    | zero => rw [h.succ, h.last _ (Nat.le_zero.mp hk')]
    | succ k' =>
      rw [h.succ, h.succ]
      exact h.smaller fun s' hs' => ih (Nat.le_of_lt_succ (Nat.lt_of_lt_of_le hs' hk))
        (Nat.le_of_lt_succ (Nat.lt_of_lt_of_le hs' hk'))

theorem eq_round (h : Dwindles size round loop) (s : σ) :
    loop (size s) s = round (fun s' => loop (size s') s') s := by
  rw [← h.loop_eq_loop (Nat.le_refl _) (Nat.le_succ _), h.succ]
  exact h.smaller fun s' hs' => h.loop_eq_loop (Nat.le_refl _) (Nat.le_of_lt hs')

end Dwindles

namespace Parser
open Attempt

/-- A part of a construct, in which constructs may nest as deep as they like. -/
def anyPart {m : Type → Type} [Steps m] (q : Part) : m Node := do
  let t ← current
  withAhead fun bound => part ((if t.kind = .eof then 0 else bound + 1) + 1) q

variable {α β : Type} {c d : Cursor} {bound : Nat}

/-- A bound on the nesting that is greater than the number of tokens left is none. -/
theorem steady_part_anyPart (q : Part) : Steady bound 0 1 0 (part bound q) (anyPart q) := fun c hc hlt =>
  steady_part (Nat.succ_le_of_lt hlt) (Nat.le_refl _) q c hc (Nat.lt_succ_self _)

theorem steady_anyPart (q : Part) : Steady bound 0 1 0 (anyPart q) (anyPart q) := fun c hc _ =>
  steady_part (Nat.le_refl _) (Nat.le_refl _) q c hc (Nat.lt_succ_self _)

theorem anyPart_expression (floor : Strength) :
    (anyPart (.expression floor) : Attempt Node) = expression anyPart floor :=
  funext fun c =>
    (steady_expression steady_part_anyPart (Nat.le_refl _) floor c (Nat.zero_le _) (Nat.lt_succ_self _)).same.symm

theorem anyPart_block : (anyPart .block : Attempt Node) = block anyPart :=
  funext fun c => (steady_block steady_part_anyPart (Nat.le_refl _) c (Nat.zero_le _) (Nat.lt_succ_self _)).same.symm

theorem bind_congr {p : Attempt α} {f f' : α → Attempt β} (hf : ∀ a d, p c = .ok (a, d) → f' a d = f a d) :
    (p >>= f') c = (p >>= f) c := by
  simp only [Bind.bind]
  cases hresult : p c with
  | error e => rfl
  | ok r => exact hf r.1 r.2 hresult

theorem bind_left_congr {p p' : Attempt α} {f : α → Attempt β} (hp : p' c = p c) : (p' >>= f) c = (p >>= f) c := by
  simp only [Bind.bind, hp]

theorem ite_congr {P : Prop} [Decidable P] {p p' q q' : Attempt α} (hp : P → p' c = p c) (hq : ¬P → q' c = q c) :
    (if P then p' else q') c = (if P then p else q) c := by
  split
  · exact hp ‹P›
  · exact hq ‹¬P›

/-- Where a parser ends that has not come to the end of the input, fewer tokens are ahead than were left. -/
theorem SteadyAt.ahead_lt {exit taken : Nat} {a : α} {r r' : Except Refusal (α × Cursor)}
    (h : SteadyAt c (exit + 1) taken r r') (hr : r = .ok (a, d)) : d.ahead.length < c.left := by
  obtain ⟨-, hexit, htaken⟩ := h.ok hr
  have hleft := Cursor.left_eq (Cursor.left_pos_iff.mp (Nat.le_trans (Nat.le_add_left 1 exit) hexit))
  omega

theorem Steady.ahead_lt {entry exit taken : Nat} {a : α} {p : Attempt α}
    (hp : ∀ bound, Steady bound entry (exit + 1) taken p p) (hc : entry ≤ c.left) (h : p c = .ok (a, d)) :
    d.ahead.length < c.left := (hp _ c hc (Nat.lt_succ_self _)).ahead_lt h

theorem Steady.ahead_lt_of_advance {entry exit taken : Nat} {input : Input} {a : α} {p : Attempt α}
    (hp : ∀ bound, Steady bound entry (exit + 1) taken p p) (hc : entry ≤ input.advance.left)
    (h : p input.advance = .ok (a, d)) : d.ahead.length < input.ahead.length :=
  Nat.lt_of_lt_of_le (ahead_lt hp hc h) (Cursor.left_advance_le input)

theorem ahead_lt_of_extend {left longer : Node} {suffix : Suffix} (hsuffix : Suffix.ofKind? c.peek.kind = some suffix)
    (h : (extend anyPart left suffix : Attempt Node) c.advance = .ok (longer, d)) : d.ahead.length < c.ahead.length :=
  Steady.ahead_lt_of_advance (fun bound => steady_extend steady_anyPart (Nat.le_succ bound) left suffix)
    (Cursor.left_pos_iff.mpr (Grammar.ne_eof_of_suffix hsuffix)) h

theorem steadyAt_statement (c : Cursor) :
    SteadyAt c 1 0 ((statement anyPart : Attempt Node) c) ((statement anyPart : Attempt Node) c) :=
  steady_statement (fun q => steady_anyPart q) (Nat.le_refl _) c (Nat.zero_le _) (Nat.lt_succ_self _)

theorem ahead_lt_of_statement {s : Node} (h : (statement anyPart : Attempt Node) c = .ok (s, d)) : d.ahead.length < c.left :=
  (steadyAt_statement c).ahead_lt h

def itemsRound (item : Attempt α) (go : Attempt (List α)) : Attempt (List α) := do
  if (← peek).kind = .comma then
    advance
    advance
    return (← item) :: (← go)
  else
    return []

theorem dwindles_moreItems {item : Attempt α} (hitem : ∀ bound, Steady bound 0 1 0 item item) :
    Dwindles (fun c => c.ahead.length) (itemsRound item) (moreItems item) where
  succ k c := rfl
  smaller {go go' c} hgo := by
    refine ite_congr (P := c.peek.kind = .comma) (fun _ => ?_) fun _ => rfl
    refine bind_congr (p := item) (c := c.advance.advance) fun a d hd => ?_
    have hlt := Steady.ahead_lt_of_advance hitem (Nat.zero_le _) hd
    rw [Input.length_ahead_advance] at hlt
    exact bind_left_congr (hgo d (Nat.lt_of_lt_of_le hlt (Nat.sub_le _ _)))
  last {c} go hc := by
    have hstop : c.peek.kind ≠ .comma := by simp [Input.peek_of_length_ahead hc, Token.eof]
    exact congrFun (if_neg hstop) c

theorem moreItems_eq_round {item : Attempt α} (hitem : ∀ bound, Steady bound 0 1 0 item item) :
    withAhead (moreItems item) = itemsRound item (withAhead (moreItems item)) :=
  funext (dwindles_moreItems hitem).eq_round

def suffixRound (floor : Strength) (go : Node × Cursor → Except Refusal (Node × Cursor)) (place : Node × Cursor) :
    Except Refusal (Node × Cursor) :=
  (match Suffix.ofKind? place.2.peek.kind with
  | none => return place.1
  | some suffix =>
    if floor < suffix.strength then do
      advance
      let longer ← extend anyPart place.1 suffix
      fun d => go (longer, d)
    else return place.1 : Attempt Node) place.2

theorem dwindles_suffixes {floor : Strength} :
    Dwindles (fun place => place.2.ahead.length) (suffixRound floor)
      (fun k place => (suffixes anyPart floor k place.1 : Attempt Node) place.2) where
  succ k place := rfl
  smaller {go go' place} hgo := by
    obtain ⟨left, c⟩ := place
    unfold suffixRound
    cases hsuffix : Suffix.ofKind? c.peek.kind with
    | none => rfl
    | some suffix =>
      refine ite_congr (fun _ => ?_) fun _ => rfl
      exact bind_congr (p := extend anyPart left suffix) (c := c.advance) fun longer d hd =>
        hgo _ (ahead_lt_of_extend hsuffix hd)
  last {place} go hc := by
    have hstop : Suffix.ofKind? place.2.peek.kind = none := by rw [Input.peek_of_length_ahead hc]; rfl
    unfold suffixRound
    rw [hstop]
    rfl

theorem suffixes_eq_round {floor : Strength} {left : Node} :
    (withAhead (fun k => suffixes anyPart floor k left) : Attempt Node) c =
      suffixRound floor (fun place => (withAhead (fun k => suffixes anyPart floor k place.1) : Attempt Node) place.2)
        (left, c) :=
  dwindles_suffixes.eq_round (left, c)

def statementsRound (go : Attempt (List Node)) : Attempt (List Node) := do
  let t ← current
  if t.kind = .rbrace ∨ t.kind = .eof then
    return []
  else
    let first ← statement anyPart
    advance
    return first :: (← go)

/-- The size is the number of tokens left, since a round that ends on the last token has none ahead before and after it. -/
theorem dwindles_statements : Dwindles Cursor.left statementsRound
    (statements anyPart : Nat → Attempt (List Node)) where
  succ k c := rfl
  smaller {go go' c} hgo := by
    refine ite_congr (P := c.current.kind = .rbrace ∨ c.current.kind = .eof) (fun _ => rfl) fun _ => ?_
    refine bind_congr (p := statement anyPart) fun first d hd => ?_
    have hlt := Nat.lt_of_le_of_lt (Cursor.left_advance_le d.toInput) (ahead_lt_of_statement hd)
    exact bind_left_congr (c := d.advance) (hgo _ hlt)
  last {c} go hc := by
    have hstop : c.current.kind = .rbrace ∨ c.current.kind = .eof :=
      .inr (Classical.byContradiction fun hkind => absurd (Cursor.left_eq hkind) (by omega))
    exact congrFun (if_pos hstop) c

theorem statements_eq_round : (withAhead fun ahead => statements anyPart (ahead + 1) : Attempt (List Node)) =
    statementsRound (withAhead fun ahead => statements anyPart (ahead + 1)) := by
  have hleft : (fun c => (statements anyPart c.left : Attempt (List Node)) c) =
      (withAhead fun ahead => statements anyPart (ahead + 1) : Attempt (List Node)) :=
    funext fun c => dwindles_statements.loop_eq_loop (Cursor.left_le c) (Nat.le_refl _)
  rw [← hleft]
  exact funext dwindles_statements.eq_round

end Parser

namespace Attempt
open Scriptlet.Parser

def round (go : Input → Except Refusal (List Node × Input)) (input : Input) :
    Except Refusal (List Node × Input) :=
  if input.peek = .eof then .ok ([], input)
  else do
    let (first, place) ← (statement anyPart : Attempt Node) input.advance
    let (others, rest) ← go place.toInput
    return (first :: others, rest)

theorem ahead_lt_of_first {input : Input} {s : Node} {c : Cursor}
    (h : (statement anyPart : Attempt Node) input.advance = .ok (s, c)) : c.ahead.length < input.ahead.length :=
  Nat.lt_of_lt_of_le (ahead_lt_of_statement h) (Cursor.left_advance_le input)

theorem dwindles_untilEnd : Dwindles (fun input => input.ahead.length) round (untilEnd anyPart) where
  succ k input := rfl
  smaller {go go' input} hgo := by
    unfold round
    split
    · rfl
    · cases hs : (statement anyPart : Attempt Node) input.advance with
      | error f => rfl
      | ok r => simp only [bind, Except.bind, hgo _ (ahead_lt_of_first hs)]
  last {input} go hinput := if_pos (Input.peek_of_length_ahead hinput)

/-- Reading a program takes no bound on how deep constructs nest. -/
theorem untilEnd_part {m k : Nat} {input : Input} (hm : input.ahead.length < m) :
    untilEnd (part m) k input = untilEnd anyPart k input := by
  induction k generalizing input with
  | zero => rfl
  | succ k ih =>
    rw [untilEnd_succ, untilEnd_succ]
    split
    · rfl
    · have hsteady := steady_statement steady_part_anyPart (Nat.le_succ m) input.advance (Nat.zero_le _)
        (Nat.lt_of_le_of_lt (Cursor.left_advance_le input) hm)
      rw [← hsteady.same]
      cases hs : (statement anyPart : Attempt Node) input.advance with
      | error f => rfl
      | ok r => simp only [bind, Except.bind, ih (Nat.lt_trans (ahead_lt_of_first hs) hm)]

theorem program_eq (tokens : List Token) :
    program tokens = untilEnd anyPart tokens.length (Input.ofTokens tokens) :=
  untilEnd_part (Nat.lt_succ_self _)

end Attempt
end Scriptlet
