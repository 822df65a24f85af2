import Scriptlet.Proofs.Parsing.Failure

/-! How far parsers look.  All that a parser does to its cursor is to advance it, and where it stops or ends depends on
no token beyond that place, or beyond the next one.  So a parser does the same on any two inputs that have the tokens up
to there in common. -/
namespace Scriptlet

def Cursor.after (c : Cursor) : (k : Nat) → Cursor
  | 0 => c
  | k + 1 => (c.after k).toInput.advance

theorem Cursor.after_after (c : Cursor) (j k : Nat) : (c.after j).after k = c.after (j + k) := by
  induction k with
  | zero => rfl
  | succ k ih =>
    rw [after, ih]
    rfl

def Agree (n : Nat) (input input' : Input) : Prop :=
  ∃ w v v', input.ahead = w ++ v ∧ input'.ahead = w ++ v' ∧ w.length = n

structure Alike (n : Nat) (c c' : Cursor) : Prop where
  current : c.current = c'.current
  agree : Agree n c.toInput c'.toInput

theorem Agree.peek_eq {n : Nat} {input input' : Input} (h : Agree n input input') (hn : 0 < n) :
    input.peek = input'.peek := by
  obtain ⟨w, v, v', hv, hv', rfl⟩ := h
  obtain ⟨t, w, rfl⟩ := List.exists_cons_of_length_pos hn
  simp [Input.peek, hv, hv']

theorem Agree.advance {n : Nat} {input input' : Input} (h : Agree (n + 1) input input') :
    Alike n input.advance input'.advance := by
  refine ⟨h.peek_eq (Nat.succ_pos n), ?_⟩
  obtain ⟨w, v, v', hv, hv', hlength⟩ := h
  obtain ⟨t, w, rfl⟩ := List.exists_cons_of_length_eq_add_one hlength
  exact ⟨w, v, v', by simp [Input.advance, hv], by simp [Input.advance, hv'], Nat.succ.inj hlength⟩

theorem Alike.after {n k : Nat} {c c' : Cursor} (h : Alike n c c') (hk : k ≤ n) :
    Alike (n - k) (c.after k) (c'.after k) := by
  induction k with
  | zero => exact h
  | succ k ih =>
    have hstep := ih (Nat.le_of_succ_le hk)
    have hleft : n - k = n - (k + 1) + 1 := by omega
    rw [hleft] at hstep
    exact hstep.agree.advance

theorem Cursor.after_reads (c : Cursor) (k : Nat) : (c.after k).reads = c.reads + k := by
  induction k with
  | zero => rfl
  | succ k ih => exact congrArg (· + 1) ih

theorem Cursor.after_injective {c : Cursor} {j k : Nat} (h : c.after j = c.after k) : j = k := by
  have hreads : c.reads + j = c.reads + k := by rw [← after_reads, ← after_reads, h]
  exact Nat.add_left_cancel hreads

namespace Parser
open Attempt

variable {α β : Type} {bound stop finish look : Nat} {p p' q q' : Attempt α} {f f' : α → Attempt β}

/-- `p` stops after `stop` tokens at least or ends after `finish` at least, and where it ends it has looked at no more
than `look` tokens further.  On an input with as many tokens in common `p'` does the same.  This is asked only of fewer
than `bound` common tokens: the two may come to the bounds on their nesting or their rounds at different places. -/
structure Local (bound stop finish look : Nat) (p p' : Attempt α) : Prop where
  error {c : Cursor} {e : Refusal} : p c = .error e → ∃ k, stop ≤ k ∧ e.place = c.after k ∧
    ∀ {n c'}, n < bound → k ≤ n → Alike n c c' → ∃ e', p' c' = .error e' ∧ e'.cause = e.cause
  ok {c d : Cursor} {a : α} : p c = .ok (a, d) → ∃ k, finish ≤ k ∧ d = c.after k ∧
    ∀ {n c'}, n < bound → k + look ≤ n → Alike n c c' → p' c' = .ok (a, c'.after k)

namespace Local
variable {stop₁ finish₁ look₁ stop₂ finish₂ look₂ : Nat}

theorem weaken (hle : stop ≤ stop₁ ∧ finish ≤ finish₁ ∧ look₁ ≤ look) (h : Local bound stop₁ finish₁ look₁ p p') :
    Local bound stop finish look p p' where
  error he := by
    obtain ⟨k, hk, hplace, hsame⟩ := h.error he
    exact ⟨k, Nat.le_trans hle.1 hk, hplace, hsame⟩
  ok hok := by
    obtain ⟨k, hk, hd, hsame⟩ := h.ok hok
    exact ⟨k, Nat.le_trans hle.2.1 hk, hd, fun hn hkn => hsame hn (by omega)⟩

theorem of_le {bound' : Nat} (h : Local bound' stop finish look p p') (hle : bound ≤ bound') :
    Local bound stop finish look p p' where
  error he := by
    obtain ⟨k, hk, hplace, hsame⟩ := h.error he
    exact ⟨k, hk, hplace, fun hn => hsame (Nat.lt_of_lt_of_le hn hle)⟩
  ok hok := by
    obtain ⟨k, hk, hd, hsame⟩ := h.ok hok
    exact ⟨k, hk, hd, fun hn => hsame (Nat.lt_of_lt_of_le hn hle)⟩

theorem of_short {bound' : Nat} (h : Local bound' stop finish look p q) (hstop : bound ≤ stop)
    (hfinish : bound ≤ finish + look) : Local bound stop finish look p p' where
  error he := by
    obtain ⟨k, hk, hplace, -⟩ := h.error he
    exact ⟨k, hk, hplace, fun hn hkn => by omega⟩
  ok hok := by
    obtain ⟨k, hk, hd, -⟩ := h.ok hok
    exact ⟨k, hk, hd, fun hn hkn => by omega⟩

/-- The second parser takes or looks at all that the first one has looked at. -/
theorem bind_of_le (hlook : look₁ ≤ stop₂) (hp : Local bound stop₁ finish₁ look₁ p p')
    (hf : ∀ a, Local (bound - finish₁) stop₂ finish₂ look₂ (f a) (f' a)) :
    Local bound (min stop₁ (finish₁ + stop₂)) (finish₁ + finish₂) (max look₂ (look₁ - finish₂)) (p >>= f)
      (p' >>= f') where
  error {c e} h := by
    rcases bind_eq_error.mp h with hstops | ⟨a, d, hends, hrest⟩
    · obtain ⟨k, hk, hplace, hsame⟩ := hp.error hstops
      refine ⟨k, by omega, hplace, fun hn hkn halike => ?_⟩
      obtain ⟨e', he', hcause⟩ := hsame hn hkn halike
      exact ⟨e', bind_eq_error.mpr (.inl he'), hcause⟩
    · obtain ⟨j, hj, rfl, hfirst⟩ := hp.ok hends
      obtain ⟨k, hk, hplace, hsame⟩ := (hf a).error hrest
      refine ⟨j + k, by omega, by rw [hplace, Cursor.after_after], fun {n c'} hn hkn halike => ?_⟩
      have hsecond := halike.after (Nat.le_trans (Nat.le_add_right j k) hkn)
      obtain ⟨e', he', hcause⟩ := hsame (by omega) (by omega) hsecond
      exact ⟨e', bind_eq_error.mpr (.inr ⟨a, _, hfirst hn (by omega) halike, he'⟩), hcause⟩
  ok {c d b} h := by
    obtain ⟨a, d', hends, hrest⟩ := bind_eq_ok.mp h
    obtain ⟨j, hj, rfl, hfirst⟩ := hp.ok hends
    obtain ⟨k, hk, rfl, hsame⟩ := (hf a).ok hrest
    refine ⟨j + k, by omega, Cursor.after_after c j k, fun {n c'} hn hkn halike => ?_⟩
    have hjn : j ≤ n := by omega
    have hresult := hsame (by omega) (by omega) (halike.after hjn)
    rw [Cursor.after_after] at hresult
    exact bind_eq_ok.mpr ⟨a, _, hfirst hn (by omega) halike, hresult⟩

theorem bind (hp : Local bound stop₁ finish₁ 0 p p')
    (hf : ∀ a, Local (bound - finish₁) stop₂ finish₂ look₂ (f a) (f' a)) :
    Local bound (min stop₁ (finish₁ + stop₂)) (finish₁ + finish₂) (max look₂ (0 - finish₂)) (p >>= f) (p' >>= f') :=
  bind_of_le (Nat.zero_le _) hp hf

theorem ite {P : Prop} [Decidable P] (hp : Local bound stop₁ finish₁ look₁ p p')
    (hq : Local bound stop₂ finish₂ look₂ q q') :
    Local bound (min stop₁ stop₂) (min finish₁ finish₂) (max look₁ look₂) (if P then p else q)
      (if P then p' else q') := by
  by_cases hP : P
  · rw [if_pos hP, if_pos hP]
    exact hp.weaken ⟨Nat.min_le_left _ _, Nat.min_le_left _ _, Nat.le_max_left _ _⟩
  · rw [if_neg hP, if_neg hP]
    exact hq.weaken ⟨Nat.min_le_right _ _, Nat.min_le_right _ _, Nat.le_max_right _ _⟩

/-- A bound on rounds that counts the tokens ahead lets two parsers be compared as far as these tokens reach. -/
theorem withAhead {p p' : Nat → Attempt α}
    (h : ∀ b ≤ bound, ∀ k k', b ≤ k + 1 → b ≤ k' + 1 → Local b stop finish look (p k) (p' k')) :
    Local bound stop finish look (withAhead p) (withAhead p') := by
  have hmove (k k' : Nat) : Local 0 stop finish look (p k) (p' k') :=
    h 0 (Nat.zero_le _) k k' (Nat.zero_le _) (Nat.zero_le _)
  have hsame {n : Nat} {c c' : Cursor} (hn : n < bound) (halike : Alike n c c') :
      Local (n + 1) stop finish look (p c.ahead.length) (p' c'.ahead.length) := by
    obtain ⟨w, v, v', hv, hv', hlength⟩ := halike.agree
    refine h (n + 1) hn _ _ ?_ ?_
    · rw [hv, List.length_append]
      omega
    · rw [hv', List.length_append]
      omega
  constructor
  · intro c e he
    obtain ⟨k, hk, hplace, -⟩ := (hmove c.ahead.length 0).error he
    refine ⟨k, hk, hplace, fun hn hkn halike => ?_⟩
    obtain ⟨j, -, hj, hother⟩ := (hsame hn halike).error he
    obtain rfl := Cursor.after_injective (hplace.symm.trans hj)
    exact hother (Nat.lt_succ_self _) hkn halike
  · intro c d a hok
    obtain ⟨k, hk, hd, -⟩ := (hmove c.ahead.length 0).ok hok
    refine ⟨k, hk, hd, fun hn hkn halike => ?_⟩
    obtain ⟨j, -, hj, hother⟩ := (hsame hn halike).ok hok
    obtain rfl := Cursor.after_injective (hd.symm.trans hj)
    exact hother (Nat.lt_succ_self _) hkn halike

end Local

theorem local_pure {a : α} : Local bound 1 0 0 (pure a) (pure a) where
  error h := by cases h
  ok h := by
    cases h
    exact ⟨0, Nat.le_refl 0, rfl, fun _ _ _ => rfl⟩

theorem local_fail {cause : ParseError} : Local bound 0 1 0 (fail cause : Attempt α) (fail cause) where
  error h := by
    cases h
    exact ⟨0, Nat.le_refl 0, rfl, fun _ _ _ => ⟨_, rfl, rfl⟩⟩
  ok h := by cases h

theorem local_exhaust : Local bound 0 1 0 (exhaust : Attempt α) exhaust where
  error h := by
    cases h
    exact ⟨0, Nat.le_refl 0, rfl, fun _ _ _ => ⟨_, rfl, rfl⟩⟩
  ok h := by cases h

theorem local_current : Local bound 1 0 0 (current : Attempt Token) current where
  error h := by cases h
  ok h := by
    cases h
    exact ⟨0, Nat.le_refl 0, rfl, fun _ _ halike => current_eq_ok.mpr ⟨halike.current.symm, rfl⟩⟩

theorem local_current_bind {f f' : Token → Attempt α} (h : ∀ t, Local bound 0 0 1 (f t) (f' t)) :
    Local bound 0 0 1 (current >>= f) (current >>= f') :=
  .weaken (by decide) (.bind local_current h)

theorem local_peek : Local bound 1 0 1 (peek : Attempt Token) peek where
  error h := by cases h
  ok h := by
    cases h
    refine ⟨0, Nat.le_refl 0, rfl, fun _ hn halike => ?_⟩
    exact peek_eq_ok.mpr ⟨(halike.agree.peek_eq (by omega)).symm, rfl⟩

theorem local_peek_bind {f f' : Token → Attempt α} (h : ∀ t, Local bound 1 0 1 (f t) (f' t)) :
    Local bound 1 0 1 (peek >>= f) (peek >>= f') :=
  .weaken (by decide) (.bind_of_le (by decide) local_peek h)

theorem local_advance : Local bound 1 1 0 (advance : Attempt Unit) advance where
  error h := by cases h
  ok h := by
    cases h
    exact ⟨1, Nat.le_refl 1, rfl, fun _ _ _ => rfl⟩

theorem local_expect (kind : Kind) : Local bound 0 0 0 (expect kind : Attempt Unit) (expect kind) where
  error {c e} h := by
    obtain ⟨hkind, rfl⟩ := expect_eq_error.mp h
    refine ⟨0, Nat.le_refl 0, rfl, fun {n c'} _ _ halike => ?_⟩
    exact ⟨_, expect_eq_error.mpr ⟨by rwa [← halike.current], rfl⟩, by rw [halike.current]⟩
  ok {c d a} h := by
    obtain ⟨hkind, rfl⟩ := expect_eq_ok.mp h
    refine ⟨0, Nat.le_refl 0, rfl, fun {n c'} _ _ halike => ?_⟩
    exact expect_eq_ok.mpr ⟨by rwa [← halike.current], rfl⟩

theorem local_take (kind : Kind) : Local bound 1 1 0 (take kind : Attempt Unit) (take kind) :=
  .weaken (by decide) (.bind local_advance fun _ => local_expect kind)

theorem local_name : Local bound 0 0 0 (name : Attempt String) name :=
  .weaken (by decide) (.bind (local_expect .identifier) fun _ => .bind local_current fun _ => local_pure)

section
variable {item item' : Attempt α} {depth : Nat} (hitem : Local depth 0 0 1 item item')
include hitem

theorem local_moreItems {k k' : Nat} (hdepth : bound ≤ depth + 1) (hk : bound ≤ k + 1) (hk' : bound ≤ k' + 1) :
    Local bound 1 0 1 (moreItems item k) (moreItems item' k') := by
  induction k generalizing k' bound with
  | zero =>
    have hnone : Local bound 1 0 1 (moreItems item 0) (moreItems item 0) := local_pure.weaken (by decide)
    exact hnone.of_short hk (by omega)
  | succ k ih =>
    have hround {j : Nat} (hj : bound ≤ j + 1 + 1) :
        Local bound 1 0 1 (moreItems item (k + 1)) (moreItems item' (j + 1)) := by
      have hothers : Local (bound - 0 - 1 - 1 - 0) 1 0 1 (moreItems item k) (moreItems item' j) :=
        ih (by omega) (by omega) (by omega)
      have hnext : Local (bound - 0 - 1 - 1) 0 0 1 item item' := hitem.of_le (by omega)
      exact .weaken (by decide) (.bind_of_le (by decide) local_peek fun t => .ite
        (.bind local_advance fun _ => .bind local_advance fun _ => .bind_of_le (by decide) hnext fun _ =>
          .bind_of_le (by decide) hothers fun _ => local_pure)
        local_pure)
    cases k' with
    | zero => exact (hround hk).of_short hk' (by omega)
    | succ k' => exact hround hk'

theorem local_items (closing : Kind) (hdepth : bound ≤ depth + 1) :
    Local bound 1 1 0 (items closing item) (items closing item') := by
  have hfirst : Local (bound - 0 - 1) 0 0 1 item item' := hitem.of_le (by omega)
  have hothers : Local (bound - 0 - 1 - 0) 1 0 1 (withAhead (moreItems item)) (withAhead (moreItems item')) :=
    .withAhead fun b hb k k' hk hk' => local_moreItems hitem (by omega) hk hk'
  exact .weaken (by decide) (.bind_of_le (by decide) local_peek fun t => .ite
    (.bind (local_take closing) fun _ => local_pure)
    (.bind local_advance fun _ => .bind_of_le (by decide) hfirst fun _ => .bind_of_le (by decide) hothers fun _ =>
      .bind (local_take closing) fun _ => local_pure))

end

structure LocalParts (depth : Nat) (inner inner' : Part → Attempt Node) : Prop where
  expression (floor : Strength) : Local depth 0 0 1 (inner (.expression floor)) (inner' (.expression floor))
  block : Local depth 0 0 1 (inner .block) (inner' .block)

section
variable {inner inner' : Part → Attempt Node} {depth : Nat} (hinner : LocalParts depth inner inner')
  (hdepth : bound ≤ depth + 1)
include hinner hdepth

theorem local_condition : Local bound 1 1 0 (condition inner) (condition inner') := by
  have htest : Local (bound - 1 - 1) 0 0 1 (inner (.expression .lowest)) (inner' (.expression .lowest)) :=
    (hinner.expression .lowest).of_le (by omega)
  exact .weaken (by decide) (.bind (local_take .lparen) fun _ => .bind local_advance fun _ =>
    .bind_of_le (by decide) htest fun _ => .bind (local_take .rparen) fun _ => local_pure)

theorem local_prefixed (op : Operator) : Local bound 1 1 1 (prefixed inner op) (prefixed inner' op) := by
  have hoperand : Local (bound - 1) 0 0 1 (inner (.expression .leading)) (inner' (.expression .leading)) :=
    (hinner.expression .leading).of_le (by omega)
  exact .weaken (by decide) (.bind local_advance fun _ => .bind_of_le (by decide) hoperand fun _ => local_pure)

theorem local_grouped : Local bound 1 1 0 (grouped inner) (grouped inner') := by
  have hinside : Local (bound - 1) 0 0 1 (inner (.expression .lowest)) (inner' (.expression .lowest)) :=
    (hinner.expression .lowest).of_le (by omega)
  exact .weaken (by decide) (.bind local_advance fun _ => .bind_of_le (by decide) hinside fun _ =>
    .bind (local_take .rparen) fun _ => local_pure)

theorem local_conditional : Local bound 1 1 1 (conditional inner) (conditional inner') := by
  have hblock {b : Nat} (hb : b ≤ depth) : Local b 0 0 1 (inner .block) (inner' .block) := hinner.block.of_le hb
  exact .weaken (by decide) (.bind (local_condition hinner hdepth) fun _ => .bind local_advance fun _ =>
    .bind_of_le (by decide) (hblock (by omega)) fun _ => .bind_of_le (by decide) local_peek fun _ => .ite
      (.bind local_advance fun _ => .bind local_advance fun _ => .bind_of_le (by decide) (hblock (by omega)) fun _ =>
        local_pure)
      local_pure)

theorem local_function : Local bound 1 1 1 (function inner) (function inner') := by
  have hname : Local bound 0 0 1 (name : Attempt String) name := local_name.weaken (by decide)
  have hparams : Local (bound - 1) 1 1 0 (items .rparen (name : Attempt String)) (items .rparen name) :=
    local_items hname .rparen (by omega)
  have hbody : Local (bound - 1 - 1 - 1) 0 0 1 (inner .block) (inner' .block) := hinner.block.of_le (by omega)
  exact .weaken (by decide) (.bind (local_take .lparen) fun _ => .bind hparams fun _ => .bind local_advance fun _ =>
    .bind_of_le (by decide) hbody fun _ => local_pure)

theorem local_expressions (closing : Kind) :
    Local bound 1 1 0 (items closing (inner (.expression .lowest))) (items closing (inner' (.expression .lowest))) :=
  local_items (hinner.expression .lowest) closing hdepth

theorem local_primary : Local bound 0 0 1 (primary inner) (primary inner') := by
  refine local_current_bind fun t => ?_
  cases t.kind
  case int =>
    dsimp only
    cases integer? t.lexeme with
    | some n => exact local_pure.weaken (by decide)
    | none => exact local_fail.weaken (by decide)
  case string | trueWord | falseWord | identifier => exact local_pure.weaken (by decide)
  case minus | neg => exact (local_prefixed hinner hdepth _).weaken (by decide)
  case lparen => exact (local_grouped hinner hdepth).weaken (by decide)
  case ifWord => exact (local_conditional hinner hdepth).weaken (by decide)
  case fnWord => exact (local_function hinner hdepth).weaken (by decide)
  case lsquare => exact .weaken (by decide) (.bind (local_expressions hinner hdepth .rsquare) fun _ => local_pure)
  all_goals exact local_fail.weaken (by decide)

theorem local_extend (left : Node) (suffix : Suffix) :
    Local bound 0 0 1 (extend inner left suffix) (extend inner' left suffix) := by
  cases suffix with
  | binary op strength =>
    have hright : Local (bound - 1) 0 0 1 (inner (.expression strength)) (inner' (.expression strength)) :=
      (hinner.expression strength).of_le (by omega)
    exact .weaken (by decide) (.bind local_advance fun _ => .bind_of_le (by decide) hright fun _ => local_pure)
  | closing op => exact local_pure.weaken (by decide)
  | call =>
    exact .weaken (by decide) (.ite (.bind (local_expressions hinner hdepth .rparen) fun _ => local_pure) local_fail)
  | index =>
    have hposition : Local (bound - 1) 0 0 1 (inner (.expression .lowest)) (inner' (.expression .lowest)) :=
      (hinner.expression .lowest).of_le (by omega)
    exact .weaken (by decide) (.ite
      (.bind local_advance fun _ => .bind_of_le (by decide) hposition fun _ => .bind (local_take .rsquare) fun _ =>
        local_pure)
      local_fail)

theorem local_suffixes {floor : Strength} {left : Node} {k k' : Nat} (hk : bound ≤ k + 1) (hk' : bound ≤ k' + 1) :
    Local bound 1 0 1 (suffixes inner floor k left) (suffixes inner' floor k' left) := by
  induction k generalizing k' bound left with
  | zero =>
    have hnone : Local bound 1 0 1 (suffixes inner floor 0 left) (suffixes inner floor 0 left) :=
      local_pure.weaken (by decide)
    exact hnone.of_short hk (by omega)
  | succ k ih =>
    have hround {j : Nat} (hj : bound ≤ j + 1 + 1) :
        Local bound 1 0 1 (suffixes inner floor (k + 1) left) (suffixes inner' floor (j + 1) left) := by
      refine local_peek_bind fun t => ?_
      cases Suffix.ofKind? t.kind with
      | none => exact local_pure.weaken (by decide)
      | some suffix =>
        have hlonger : Local (bound - 1) 0 0 1 (extend inner left suffix) (extend inner' left suffix) :=
          local_extend hinner (by omega) left suffix
        have hrest (longer : Node) : Local (bound - 1 - 0) 1 0 1 (suffixes inner floor k longer)
            (suffixes inner' floor j longer) := ih (by omega) (by omega) (by omega)
        exact .weaken (by decide) (.ite (.bind local_advance fun _ => .bind_of_le (by decide) hlonger hrest) local_pure)
    cases k' with
    | zero => exact (hround hk).of_short hk' (by omega)
    | succ k' => exact hround hk'

theorem local_expression (floor : Strength) :
    Local bound 0 0 1 (expression inner floor) (expression inner' floor) := by
  have hsuffixes (left : Node) : Local (bound - 0) 1 0 1 (withAhead fun k => suffixes inner floor k left)
      (withAhead fun k => suffixes inner' floor k left) :=
    .withAhead fun b hb k k' hk hk' => local_suffixes hinner (by omega) hk hk'
  exact .weaken (by decide) (.bind_of_le (by decide) (local_primary hinner hdepth) hsuffixes)

theorem local_letStatement : Local bound 1 1 1 (letStatement inner) (letStatement inner') := by
  have hvalue : Local (bound - 1 - 0 - 1 - 1) 0 0 1 (inner (.expression .lowest)) (inner' (.expression .lowest)) :=
    (hinner.expression .lowest).of_le (by omega)
  exact .weaken (by decide) (.bind local_advance fun _ => .bind local_name fun _ => .bind (local_take .assign) fun _ =>
    .bind local_advance fun _ => .bind_of_le (by decide) hvalue fun _ => local_pure)

theorem local_returnStatement : Local bound 1 1 1 (returnStatement inner) (returnStatement inner') := by
  have hvalue : Local (bound - 1) 0 0 1 (inner (.expression .lowest)) (inner' (.expression .lowest)) :=
    (hinner.expression .lowest).of_le (by omega)
  exact .weaken (by decide) (.bind local_advance fun _ => .bind_of_le (by decide) hvalue fun _ => local_pure)

theorem local_whileStatement : Local bound 1 1 1 (whileStatement inner) (whileStatement inner') := by
  have hbody : Local (bound - 1 - 1) 0 0 1 (inner .block) (inner' .block) := hinner.block.of_le (by omega)
  exact .weaken (by decide) (.bind (local_condition hinner hdepth) fun _ => .bind local_advance fun _ =>
    .bind_of_le (by decide) hbody fun _ => local_pure)

theorem local_statement : Local bound 0 0 1 (statement inner) (statement inner') := by
  refine local_current_bind fun t => ?_
  cases t.kind
  case letWord => exact (local_letStatement hinner hdepth).weaken (by decide)
  case returnWord => exact (local_returnStatement hinner hdepth).weaken (by decide)
  case whileWord => exact (local_whileStatement hinner hdepth).weaken (by decide)
  all_goals
    exact .weaken (by decide) (.bind_of_le (by decide) (local_expression hinner hdepth .lowest) fun _ => local_pure)

theorem local_statements {k k' : Nat} (hk : bound ≤ k) (hk' : bound ≤ k') :
    Local bound 0 0 0 (statements inner k) (statements inner' k') := by
  induction k generalizing k' bound with
  | zero =>
    have hnone : Local bound 0 0 0 (statements inner 0) (statements inner 0) := local_pure.weaken (by decide)
    exact hnone.of_short hk hk
  | succ k ih =>
    have hround {j : Nat} (hj : bound ≤ j + 1) :
        Local bound 0 0 0 (statements inner (k + 1)) (statements inner' (j + 1)) := by
      have hfirst : Local (bound - 0) 0 0 1 (statement inner) (statement inner') := local_statement hinner (by omega)
      have hothers : Local (bound - 0 - 0 - 1) 0 0 0 (statements inner k) (statements inner' j) :=
        ih (by omega) (by omega) (by omega)
      exact .weaken (by decide) (.bind local_current fun _ => .ite local_pure
        (.bind_of_le (by decide) hfirst fun _ => .bind local_advance fun _ => .bind hothers fun _ => local_pure))
    cases k' with
    | zero => exact (hround hk).of_short hk' hk'
    | succ k' => exact hround hk'

theorem local_block : Local bound 0 0 1 (block inner) (block inner') := by
  have hbody : Local (bound - 0 - 1) 0 0 0 (withAhead fun ahead => statements inner (ahead + 1))
      (withAhead fun ahead => statements inner' (ahead + 1)) :=
    .withAhead fun b hb k k' hk hk' => local_statements hinner (by omega) hk hk'
  exact .weaken (by decide) (.bind (local_expect .lbrace) fun _ => .bind local_advance fun _ => .bind hbody fun _ =>
    .bind (local_expect .rbrace) fun _ => local_pure)

end

/-- Two bounds on the nesting let parts be compared as far as the lesser of them. -/
theorem localParts_part {m m' : Nat} (hm : bound ≤ m) (hm' : bound ≤ m') : LocalParts bound (part m) (part m') := by
  induction m generalizing m' bound with
  | zero =>
    have hnone (p : Part) : Local bound 0 0 1 (part 0 p) (part 0 p) := local_exhaust.weaken (by decide)
    exact ⟨fun floor => (hnone _).of_short hm (by omega), (hnone _).of_short hm (by omega)⟩
  | succ m ih =>
    have hround {j : Nat} (hj : bound ≤ j + 1) : LocalParts bound (part (m + 1)) (part (j + 1)) := by
      have hparts : LocalParts (bound - 1) (part m) (part j) := ih (by omega) (by omega)
      exact ⟨fun floor => local_expression hparts (by omega) floor, local_block hparts (by omega)⟩
    cases m' with
    | zero =>
      have h := hround hm
      exact ⟨fun floor => (h.expression floor).of_short hm' (by omega), h.block.of_short hm' (by omega)⟩
    | succ m' => exact hround hm'

end Parser

namespace Attempt
open Scriptlet.Parser

variable {inner inner' : Part → Attempt Node} {depth n : Nat} {input input' : Input} {f : Refusal}

theorem untilEnd_local (hinner : LocalParts depth inner inner') {k : Nat} (h : untilEnd inner k input = .error f) :
    ∃ j, f.place = input.advance.after j ∧ ∀ {n k' input'}, n ≤ depth → n ≤ k' → j < n → Agree n input input' →
      ∃ f', untilEnd inner' k' input' = .error f' ∧ f'.cause = f.cause := by
  have hstatement : Local (depth + 1) 0 0 1 (statement inner) (statement inner') :=
    local_statement hinner (Nat.le_refl _)
  induction k generalizing input with
  | zero => cases h
  | succ k ih =>
    obtain ⟨hpeek, h⟩ := untilEnd_succ_eq_error.mp h
    rcases h with hfirst | ⟨s, c, hfirst, hothers⟩
    · obtain ⟨j, -, hplace, hsame⟩ := hstatement.error hfirst
      refine ⟨j, hplace, fun {n k' input'} hn hk' hj hagree => ?_⟩
      obtain ⟨n, rfl⟩ := Nat.exists_eq_add_one_of_ne_zero (Nat.ne_zero_of_lt hj)
      obtain ⟨k', rfl⟩ := Nat.exists_eq_add_one_of_ne_zero (n := k') (by omega)
      obtain ⟨f', hf', hcause⟩ := hsame (by omega) (by omega) hagree.advance
      rw [hagree.peek_eq (Nat.succ_pos n)] at hpeek
      exact ⟨f', untilEnd_succ_eq_error.mpr ⟨hpeek, .inl hf'⟩, hcause⟩
    · obtain ⟨i, -, rfl, hsame⟩ := hstatement.ok hfirst
      obtain ⟨j, hplace, hrest⟩ := ih hothers
      refine ⟨i + 1 + j, by rw [hplace, ← Cursor.after_after]; rfl, fun {n k' input'} hn hk' hj hagree => ?_⟩
      obtain ⟨n, rfl⟩ := Nat.exists_eq_add_one_of_ne_zero (Nat.ne_zero_of_lt hj)
      obtain ⟨k', rfl⟩ := Nat.exists_eq_add_one_of_ne_zero (n := k') (by omega)
      have hfirst' := hsame (by omega) (by omega) hagree.advance
      have hagree' : Agree (n - i) (input.advance.after i).toInput (input'.advance.after i).toInput :=
        (hagree.advance.after (by omega)).agree
      have hk'' : n - i ≤ k' := by omega
      obtain ⟨f', hf', hcause⟩ := hrest (by omega) hk'' (by omega) hagree'
      rw [hagree.peek_eq (Nat.succ_pos n)] at hpeek
      exact ⟨f', untilEnd_succ_eq_error.mpr ⟨hpeek, .inr ⟨s, _, hfirst', hf'⟩⟩, hcause⟩

/-- Where a program fails is told by its tokens up to there: with any others after them, it fails there for the same
cause. -/
theorem program_local {tokens : List Token} (h : program tokens = .error f) :
    ∃ i, f.place = (Input.ofTokens tokens).advance.after i ∧ ∀ tokens', i < tokens.length →
      tokens.take (i + 1) <+: tokens' → ∃ f', program tokens' = .error f' ∧ f'.cause = f.cause := by
  obtain ⟨i, hplace, -⟩ := untilEnd_local (localParts_part (Nat.le_refl _) (Nat.le_refl _)) h
  refine ⟨i, hplace, fun tokens' hi htokens' => ?_⟩
  obtain ⟨v', rfl⟩ := htokens'
  have hlength : (tokens.take (i + 1)).length = i + 1 := List.length_take_of_le hi
  have hparts : LocalParts (i + 1) (part (tokens.length + 1)) (part ((tokens.take (i + 1) ++ v').length + 1)) :=
    localParts_part (by omega) (by simp only [List.length_append, hlength]; omega)
  obtain ⟨j, hplace', hsame⟩ := untilEnd_local hparts h
  obtain rfl := Cursor.after_injective (hplace.symm.trans hplace')
  have hagree : Agree (i + 1) (Input.ofTokens tokens) (Input.ofTokens (tokens.take (i + 1) ++ v')) :=
    ⟨tokens.take (i + 1), tokens.drop (i + 1), v', (List.take_append_drop _ _).symm, rfl, hlength⟩
  have hrounds : i + 1 ≤ (tokens.take (i + 1) ++ v').length := by simp only [List.length_append, hlength]; omega
  obtain ⟨f', hf', hcause⟩ := hsame (Nat.le_refl _) hrounds (Nat.lt_succ_self i) hagree
  exact ⟨f', hf', hcause⟩

end Attempt
end Scriptlet
