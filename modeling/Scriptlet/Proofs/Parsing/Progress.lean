import Mathlib.Logic.Relation
import Scriptlet.Proofs.Parsing.Failure
import Scriptlet.Proofs.Parsing.Locality
import Scriptlet.Proofs.Parsing.Soundness

/-! How parsers get on.  They take a token only where one is current, never at the end of the input, and whatever they go on
to inside has fewer tokens left.  So where few enough tokens are left, a bound on the nesting makes no difference to them. -/
namespace Scriptlet
open Relation (ReflTransGen)

namespace Input
variable {input : Input}

theorem length_ahead_advance (input : Input) : input.advance.ahead.length = input.ahead.length - 1 := List.length_tail

theorem peek_of_length_ahead (h : input.ahead.length = 0) : input.peek = .eof := by
  simp [peek, List.eq_nil_of_length_eq_zero h]

theorem length_ahead_pos (h : input.peek.kind ≠ .eof) : 0 < input.ahead.length :=
  Nat.pos_of_ne_zero fun hzero => h (by rw [peek_of_length_ahead hzero]; rfl)

theorem ahead_eq_nil (hkinds : ∀ t ∈ input.ahead, t.kind ≠ .eof) (hpeek : input.peek = .eof) : input.ahead = [] := by
  cases hahead : input.ahead with
  | nil => rfl
  | cons t ts =>
    have ht : t = .eof := by simpa [peek, hahead] using hpeek
    exact (hkinds t (by simp [hahead]) (by rw [ht]; rfl)).elim

end Input

namespace Cursor

/-- How many tokens are left, the current one included; none at the end of the input. -/
def left (c : Cursor) : Nat := if c.current.kind = .eof then 0 else c.ahead.length + 1

def Takes (c d : Cursor) : Prop := c.current.kind ≠ .eof ∧ c.toInput.advance = d

def Reaches : Cursor → Cursor → Prop := ReflTransGen Takes

variable {c d : Cursor} {input : Input}

theorem left_pos_iff : 1 ≤ c.left ↔ c.current.kind ≠ .eof := by
  unfold left
  split <;> simp [*]

theorem left_le (c : Cursor) : c.left ≤ c.ahead.length + 1 := by
  unfold left
  split
  · exact Nat.zero_le _
  · exact Nat.le_refl _

theorem left_eq (h : c.current.kind ≠ .eof) : c.left = c.ahead.length + 1 := if_neg h

theorem left_advance_le (input : Input) : input.advance.left ≤ input.ahead.length := by
  cases h : input.ahead with
  | nil => simp [left, Input.advance, Input.peek, h, Token.eof]
  | cons t ts =>
    have hle := left_le input.advance
    simpa [Input.advance, h] using hle

theorem left_advance_lt (h : 1 ≤ c.left) : c.advance.left + 1 ≤ c.left := by
  rw [left_eq (left_pos_iff.mp h)]
  exact Nat.succ_le_succ (left_advance_le c.toInput)

theorem reaches_advance (h : 1 ≤ c.left) : c.Reaches c.advance := .single ⟨left_pos_iff.mp h, rfl⟩

/-- What is reached is so many tokens further on, and none of the tokens before it was the end. -/
theorem Reaches.exists_after (h : c.Reaches d) :
    ∃ k, d = c.after k ∧ ∀ j < k, (c.after j).current.kind ≠ .eof := by
  induction h with
  | refl => exact ⟨0, rfl, nofun⟩
  | tail _ hstep ih =>
    obtain ⟨k, rfl, hbefore⟩ := ih
    obtain ⟨hkind, rfl⟩ := hstep
    refine ⟨k + 1, rfl, fun j hj => ?_⟩
    rcases Nat.lt_succ_iff_lt_or_eq.mp hj with hj | rfl
    · exact hbefore j hj
    · exact hkind

theorem left_advance_eq {input : Input} (heof : ∀ t ∈ input.ahead, t.kind ≠ .eof) :
    input.advance.left = input.ahead.length := by
  cases hahead : input.ahead with
  | nil => simp [left, Input.advance, Input.peek, hahead, Token.eof]
  | cons t ts =>
    have ht : t.kind ≠ .eof := heof t (by simp [hahead])
    simp [left, Input.advance, Input.peek, hahead, ht]

/-- Where no token says that it is the end, each one that is taken is asked for once. -/
theorem Reaches.reads_add_left (h : c.Reaches d) (heof : ∀ t ∈ c.ahead, t.kind ≠ .eof) :
    d.reads + d.left = c.reads + c.left ∧ ∀ t ∈ d.ahead, t.kind ≠ .eof := by
  induction h with
  | refl => exact ⟨rfl, heof⟩
  | @tail d _ _ hstep ih =>
    obtain ⟨hreads, heof⟩ := ih
    obtain ⟨hkind, rfl⟩ := hstep
    rw [left_eq hkind] at hreads
    refine ⟨?_, fun t ht => heof t (List.mem_of_mem_tail ht)⟩
    rw [← hreads, left_advance_eq heof]
    show d.reads + 1 + d.ahead.length = _
    omega

end Cursor

namespace Parser
open Attempt

variable {α β : Type} {c : Cursor} {bound entry middle exit taken taken' : Nat}

/-- What two parsers do from a cursor is the same.  They take no token at the end of the input, and if they succeed then they
have taken so many tokens at least and have so many left at least.  They do not fail for a bound on their nesting. -/
structure SteadyAt (c : Cursor) (exit taken : Nat) (r r' : Except Refusal (α × Cursor)) : Prop where
  same : r' = r
  ok {a : α} {d : Cursor} : r = .ok (a, d) → c.Reaches d ∧ exit ≤ d.left ∧ d.left + taken ≤ c.left
  error {e : Refusal} : r = .error e → c.Reaches e.place ∧ e.cause ≠ none

/-- Two parsers are steady wherever at least `entry` tokens are left and fewer than `bound`. -/
def Steady (bound entry exit taken : Nat) (p p' : Attempt α) : Prop :=
  ∀ c : Cursor, entry ≤ c.left → c.left < bound → SteadyAt c exit taken (p c) (p' c)

theorem SteadyAt.bind {p p' : Attempt α} {f f' : α → Attempt β} (hp : SteadyAt c middle taken (p c) (p' c))
    (hf : ∀ (a : α) (d : Cursor), middle ≤ d.left → d.left + taken ≤ c.left →
      SteadyAt d exit taken' (f a d) (f' a d)) :
    SteadyAt c exit (taken + taken') ((p >>= f) c) ((p' >>= f') c) where
  same := by
    simp only [Bind.bind, hp.same]
    cases hresult : p c with
    | error e => rfl
    | ok r =>
      obtain ⟨-, hexit, htaken⟩ := hp.ok hresult
      exact (hf r.1 r.2 hexit htaken).same
  ok h := by
    obtain ⟨a, d', hfirst, hrest⟩ := bind_eq_ok.mp h
    obtain ⟨hreach, hexit, htaken⟩ := hp.ok hfirst
    obtain ⟨hreach', hexit', htaken'⟩ := (hf a d' hexit htaken).ok hrest
    exact ⟨hreach.trans hreach', hexit', by omega⟩
  error h := by
    rcases bind_eq_error.mp h with hstops | ⟨a, d, hfirst, hrest⟩
    · exact hp.error hstops
    · obtain ⟨hreach, hexit, htaken⟩ := hp.ok hfirst
      obtain ⟨hreach', hcause⟩ := (hf a d hexit htaken).error hrest
      exact ⟨hreach.trans hreach', hcause⟩

namespace Steady

theorem weaken {entry' exit' : Nat} {p p' : Attempt α} (h : Steady bound entry' exit' taken' p p')
    (hle : entry' ≤ entry ∧ exit ≤ exit' ∧ taken ≤ taken') : Steady bound entry exit taken p p' := by
  obtain ⟨hentry, hexit, htaken⟩ := hle
  intro c hc hlt
  obtain ⟨hsame, hok, herror⟩ := h c (Nat.le_trans hentry hc) hlt
  refine ⟨hsame, fun hd => ?_, herror⟩
  obtain ⟨hreach, hleft, hcount⟩ := hok hd
  exact ⟨hreach, Nat.le_trans hexit hleft, by omega⟩

theorem of_le {bound' : Nat} {p p' : Attempt α} (h : Steady bound' entry exit taken p p') (hle : bound ≤ bound') :
    Steady bound entry exit taken p p' := fun c hc hlt => h c hc (Nat.lt_of_lt_of_le hlt hle)

theorem bind {p p' : Attempt α} {f f' : α → Attempt β} (hp : Steady bound entry middle taken p p')
    (hf : ∀ a, Steady (bound - taken) middle exit taken' (f a) (f' a)) :
    Steady bound entry exit (taken + taken') (p >>= f) (p' >>= f') :=
  fun c hc hlt => (hp c hc hlt).bind fun a d hexit htaken => hf a d hexit (by omega)

end Steady

theorem steady_pure {a : α} : Steady bound entry entry 0 (pure a) (pure a) := fun c hc _ => by
  refine ⟨rfl, fun h => ?_, fun h => (pure_eq_error.mp h).elim⟩
  obtain ⟨-, rfl⟩ := pure_eq_ok.mp h
  exact ⟨.refl, hc, Nat.le_refl _⟩

theorem steady_fail {cause : ParseError} :
    Steady bound entry exit taken (fail cause : Attempt α) (fail cause) := fun c _ _ => by
  refine ⟨rfl, fun h => (fail_eq_ok.mp h).elim, fun h => ?_⟩
  obtain rfl := fail_eq_error.mp h
  exact ⟨.refl, by simp⟩

theorem steady_advance : Steady bound 1 0 1 (advance : Attempt Unit) advance := fun c hc _ => by
  refine ⟨rfl, fun h => ?_, fun h => (advance_eq_error.mp h).elim⟩
  obtain rfl := advance_eq_ok.mp h
  exact ⟨Cursor.reaches_advance hc, Nat.zero_le _, Cursor.left_advance_lt hc⟩

theorem steady_expect {kind : Kind} (hkind : kind ≠ .eof) : Steady bound 0 1 0 (expect kind : Attempt Unit) (expect kind) :=
  fun c _ _ => by
    refine ⟨rfl, fun h => ?_, fun h => ?_⟩
    · obtain ⟨hcurrent, rfl⟩ := expect_eq_ok.mp h
      exact ⟨.refl, Cursor.left_pos_iff.mpr (hcurrent ▸ hkind), Nat.le_refl _⟩
    · obtain ⟨-, rfl⟩ := expect_eq_error.mp h
      exact ⟨.refl, by simp⟩

theorem steady_take {kind : Kind} (hkind : kind ≠ .eof) : Steady bound 1 1 1 (take kind : Attempt Unit) (take kind) :=
  .bind steady_advance fun _ => steady_expect hkind

theorem steady_withAhead {p p' : Nat → Attempt α} (h : ∀ k, Steady bound entry exit taken (p k) (p' k)) :
    Steady bound entry exit taken (withAhead p) (withAhead p') := fun c => h c.ahead.length c

theorem steady_ite {P : Prop} [Decidable P] {p p' q q' : Attempt α} (hp : Steady bound entry exit taken p p')
    (hq : Steady bound entry exit taken q q') :
    Steady bound entry exit taken (if P then p else q) (if P then p' else q') := by
  split
  · exact hp
  · exact hq

theorem steady_current_bind {f f' : Token → Attempt α} (h : ∀ t, Steady bound entry exit taken (f t) (f' t)) :
    Steady bound entry exit taken (current >>= f) (current >>= f') := fun c => h c.current c

theorem steady_peek_bind {f f' : Token → Attempt α} (h : ∀ t, Steady bound entry exit taken (f t) (f' t)) :
    Steady bound entry exit taken (peek >>= f) (peek >>= f') := fun c => h c.peek c

theorem steady_name : Steady bound 0 1 0 (name : Attempt String) name :=
  .bind (steady_expect (by decide)) fun _ _ hc _ => steady_pure _ hc (Nat.lt_succ_self _)

theorem suffixes_succ {inner : Part → Attempt Node} {floor : Strength} {k : Nat} {left : Node} :
    suffixes inner floor (k + 1) left c =
      (match Suffix.ofKind? c.peek.kind with
      | none => return left
      | some suffix =>
        if floor < suffix.strength then do
          advance
          let longer ← extend inner left suffix
          suffixes inner floor k longer
        else return left : Attempt Node) c := rfl

theorem statement_eq {inner : Part → Attempt Node} : statement inner c =
    (match c.current.kind with
    | .letWord => letStatement inner
    | .returnWord => returnStatement inner
    | .whileWord => whileStatement inner
    | _ => do return .exprStmt (← expression inner .lowest) : Attempt Node) c := rfl

/-- Another token is taken because of its kind, which is not the end. -/
theorem SteadyAt.advance_bind {p p' : Attempt α} (hc : 1 ≤ c.left) (hpeek : c.peek.kind ≠ .eof)
    (h : Steady bound 1 exit taken p p') (hbound : c.left ≤ bound) :
    SteadyAt c exit taken ((advance >>= fun _ => p) c) ((advance >>= fun _ => p') c) := by
  have hlive : 1 ≤ c.advance.left := Cursor.left_pos_iff.mpr hpeek
  have hlt := Cursor.left_advance_lt hc
  obtain ⟨hsame, hok, herror⟩ := h c.advance hlive (by omega)
  refine ⟨hsame, fun hd => ?_, fun he => ?_⟩
  · obtain ⟨hreach, hexit, htaken⟩ := hok hd
    exact ⟨(Cursor.reaches_advance hc).trans hreach, hexit, by omega⟩
  · obtain ⟨hreach, hcause⟩ := herror he
    exact ⟨(Cursor.reaches_advance hc).trans hreach, hcause⟩

theorem steady_peek_ite {kind : Kind} (hkind : kind ≠ .eof) {p p' q q' : Attempt α}
    (hp : Steady (bound - 1) 1 exit taken p p') (hq : Steady bound 1 exit taken q q') :
    Steady bound 1 exit taken (peek >>= fun t => if t.kind = kind then advance >>= fun _ => p else q)
      (peek >>= fun t => if t.kind = kind then advance >>= fun _ => p' else q') := by
  intro c hc hlt
  show SteadyAt c exit taken ((if c.peek.kind = kind then _ else q : Attempt α) c)
    ((if c.peek.kind = kind then _ else q' : Attempt α) c)
  by_cases hpeek : c.peek.kind = kind
  · rw [if_pos hpeek, if_pos hpeek]
    exact .advance_bind hc (hpeek ▸ hkind) hp (by omega)
  · rw [if_neg hpeek, if_neg hpeek]
    exact hq c hc hlt

section
variable {item item' : Attempt α} {depth : Nat} (hitem : Steady depth 0 1 0 item item') (hdepth : bound ≤ depth + 1)
include hitem hdepth

theorem steady_moreItems (k : Nat) : Steady bound 1 1 0 (moreItems item k) (moreItems item' k) := by
  induction k generalizing bound with
  | zero => exact steady_pure
  | succ k ih =>
    have hround : Steady (bound - 1) 1 1 1
        (advance >>= fun _ => item >>= fun a => moreItems item k >>= fun others => pure (a :: others))
        (advance >>= fun _ => item' >>= fun a => moreItems item' k >>= fun others => pure (a :: others)) :=
      .bind steady_advance fun _ => .bind (hitem.of_le (by omega)) fun _ => .bind (ih (by omega)) fun _ => steady_pure
    exact steady_peek_ite (by decide) (hround.weaken (by decide)) steady_pure

theorem steady_items {closing : Kind} (hclosing : closing ≠ .eof) :
    Steady bound 1 1 1 (items closing item) (items closing item') := by
  refine steady_peek_bind fun t => steady_ite ?_ ?_
  · exact .bind (steady_take hclosing) fun _ => steady_pure
  · exact .weaken (.bind steady_advance fun _ => .bind (hitem.of_le (by omega)) fun _ =>
      .bind (steady_withAhead (steady_moreItems hitem (by omega))) fun _ => .bind (steady_take hclosing) fun _ =>
        steady_pure) (by decide)

end

section
variable {inner inner' : Part → Attempt Node} {depth : Nat} (hinner : ∀ q, Steady depth 0 1 0 (inner q) (inner' q))
  (hdepth : bound ≤ depth + 1)
include hinner hdepth

theorem steady_condition : Steady bound 1 1 2 (condition inner) (condition inner') :=
  .weaken (.bind (steady_take (by decide)) fun _ => .bind steady_advance fun _ =>
    .bind ((hinner _).of_le (by omega)) fun _ => .bind (steady_take (by decide)) fun _ => steady_pure) (by decide)

theorem steady_prefixed (op : Operator) : Steady bound 1 1 0 (prefixed inner op) (prefixed inner' op) :=
  .weaken (.bind steady_advance fun _ => .bind ((hinner _).of_le (by omega)) fun _ => steady_pure) (by decide)

theorem steady_grouped : Steady bound 1 1 0 (grouped inner) (grouped inner') :=
  .weaken (.bind steady_advance fun _ => .bind ((hinner _).of_le (by omega)) fun _ =>
    .bind (steady_take (by decide)) fun _ => steady_pure) (by decide)

theorem steady_conditional : Steady bound 1 1 0 (conditional inner) (conditional inner') :=
  .weaken (.bind (steady_condition hinner hdepth) fun _ => .bind steady_advance fun _ =>
    .bind ((hinner _).of_le (by omega)) fun _ => steady_peek_ite (by decide)
      (.weaken (.bind steady_advance fun _ => .bind ((hinner _).of_le (by omega)) fun _ => steady_pure) (by decide))
      steady_pure) (by decide)

theorem steady_function : Steady bound 1 1 0 (function inner) (function inner') := by
  have hname : Steady bound 0 1 0 (name : Attempt String) name := steady_name
  have hparams : Steady (bound - 1) 1 1 1 (items .rparen (name : Attempt String)) (items .rparen name) :=
    steady_items hname (by omega) (by decide)
  exact .weaken (.bind (steady_take (by decide)) fun _ => .bind hparams fun _ => .bind steady_advance fun _ =>
    .bind ((hinner _).of_le (by omega)) fun _ => steady_pure) (by decide)

theorem steady_expressions {closing : Kind} (hclosing : closing ≠ .eof) : Steady bound 1 1 1
    (items closing (inner (.expression .lowest))) (items closing (inner' (.expression .lowest))) :=
  steady_items (hinner _) hdepth hclosing

/-- At the end of the input no expression starts; elsewhere the current token has been looked at and may be left behind. -/
theorem steady_primary : Steady bound 0 1 0 (primary inner) (primary inner') := by
  intro c _ hlt
  rw [primary_eq, primary_eq]
  have live {p p' : Attempt Node} {kind : Kind} (hkind : c.current.kind = kind) (hne : kind ≠ .eof)
      (h : Steady bound 1 1 0 p p') : SteadyAt c 1 0 (p c) (p' c) :=
    h c (Cursor.left_pos_iff.mpr (hkind ▸ hne)) hlt
  cases hk : c.current.kind
  case int =>
    dsimp only
    cases integer? c.current.lexeme with
    | some n => exact live hk (by decide) steady_pure
    | none => exact live hk (by decide) steady_fail
  case string | trueWord | falseWord | identifier => exact live hk (by decide) steady_pure
  case minus | neg => exact live hk (by decide) (steady_prefixed hinner hdepth _)
  case lparen => exact live hk (by decide) (steady_grouped hinner hdepth)
  case ifWord => exact live hk (by decide) (steady_conditional hinner hdepth)
  case fnWord => exact live hk (by decide) (steady_function hinner hdepth)
  case lsquare =>
    exact live hk (by decide)
      (.weaken (.bind (steady_expressions hinner hdepth (by decide)) fun _ => steady_pure) (by decide))
  all_goals exact steady_fail c (Nat.zero_le _) hlt

theorem steady_extend (left : Node) (suffix : Suffix) :
    Steady bound 1 1 0 (extend inner left suffix) (extend inner' left suffix) := by
  cases suffix with
  | binary op strength =>
    exact .weaken (.bind steady_advance fun _ => .bind ((hinner _).of_le (by omega)) fun _ => steady_pure) (by decide)
  | closing op => exact steady_pure
  | call =>
    refine steady_ite ?_ steady_fail
    exact .weaken (.bind (steady_expressions hinner hdepth (by decide)) fun _ => steady_pure) (by decide)
  | index =>
    refine steady_ite ?_ steady_fail
    exact .weaken (.bind steady_advance fun _ => .bind ((hinner _).of_le (by omega)) fun _ =>
      .bind (steady_take (by decide)) fun _ => steady_pure) (by decide)

theorem steady_suffixes (floor : Strength) (k : Nat) (left : Node) :
    Steady bound 1 1 0 (suffixes inner floor k left) (suffixes inner' floor k left) := by
  induction k generalizing bound left with
  | zero => exact steady_pure
  | succ k ih =>
    intro c hc hlt
    rw [suffixes_succ, suffixes_succ]
    cases hsuffix : Suffix.ofKind? c.peek.kind with
    | none => exact steady_pure c hc hlt
    | some suffix =>
      dsimp only
      by_cases hfloor : floor < suffix.strength
      · rw [if_pos hfloor, if_pos hfloor]
        have hround : Steady (bound - 1) 1 1 0
            (extend inner left suffix >>= fun longer => suffixes inner floor k longer)
            (extend inner' left suffix >>= fun longer => suffixes inner' floor k longer) :=
          .bind (steady_extend hinner (by omega) left suffix) fun longer => ih (by omega) longer
        exact .advance_bind hc (Grammar.ne_eof_of_suffix hsuffix) hround (by omega)
      · rw [if_neg hfloor, if_neg hfloor]
        exact steady_pure c hc hlt

theorem steady_expression (floor : Strength) :
    Steady bound 0 1 0 (expression inner floor) (expression inner' floor) :=
  .bind (steady_primary hinner hdepth) fun _ => steady_withAhead fun k => steady_suffixes hinner (by omega) floor k _

theorem steady_letStatement : Steady bound 1 1 0 (letStatement inner) (letStatement inner') :=
  .weaken (.bind steady_advance fun _ => .bind steady_name fun _ => .bind (steady_take (by decide)) fun _ =>
    .bind steady_advance fun _ => .bind ((hinner _).of_le (by omega)) fun _ => steady_pure) (by decide)

theorem steady_returnStatement : Steady bound 1 1 0 (returnStatement inner) (returnStatement inner') :=
  .weaken (.bind steady_advance fun _ => .bind ((hinner _).of_le (by omega)) fun _ => steady_pure) (by decide)

theorem steady_whileStatement : Steady bound 1 1 0 (whileStatement inner) (whileStatement inner') :=
  .weaken (.bind (steady_condition hinner hdepth) fun _ => .bind steady_advance fun _ =>
    .bind ((hinner _).of_le (by omega)) fun _ => steady_pure) (by decide)

theorem steady_statement : Steady bound 0 1 0 (statement inner) (statement inner') := by
  intro c hc hlt
  have live {p p' : Attempt Node} {kind : Kind} (hkind : c.current.kind = kind) (hne : kind ≠ .eof)
      (h : Steady bound 1 1 0 p p') : SteadyAt c 1 0 (p c) (p' c) :=
    h c (Cursor.left_pos_iff.mpr (hkind ▸ hne)) hlt
  rw [statement_eq, statement_eq]
  cases hk : c.current.kind
  case letWord => exact live hk (by decide) (steady_letStatement hinner hdepth)
  case returnWord => exact live hk (by decide) (steady_returnStatement hinner hdepth)
  case whileWord => exact live hk (by decide) (steady_whileStatement hinner hdepth)
  all_goals
    exact Steady.bind (steady_expression hinner hdepth .lowest) (fun _ => steady_pure) c hc hlt

theorem steady_statements (k : Nat) : Steady bound 0 0 0 (statements inner k) (statements inner' k) := by
  induction k generalizing bound with
  | zero => exact steady_pure
  | succ k ih =>
    refine steady_current_bind fun t => steady_ite steady_pure ?_
    exact .weaken (.bind (steady_statement hinner hdepth) fun _ => .bind steady_advance fun _ =>
      .bind (ih (by omega)) fun _ => steady_pure) (by decide)

theorem steady_block : Steady bound 0 1 0 (block inner) (block inner') :=
  .weaken (.bind (steady_expect (by decide)) fun _ => .bind steady_advance fun _ =>
    .bind (steady_withAhead fun k => steady_statements hinner (by omega) (k + 1)) fun _ =>
      .bind (steady_expect (by decide)) fun _ => steady_pure) (by decide)

end

/-- Where few enough tokens are left, two bounds on the nesting make no difference. -/
theorem steady_part {m m' : Nat} (hm : bound ≤ m) (hm' : bound ≤ m') (q : Part) :
    Steady bound 0 1 0 (part m q) (part m' q) := by
  induction m generalizing m' bound q with
  | zero =>
    intro c _ hlt
    omega
  | succ m ih =>
    intro c hc hlt
    obtain ⟨m', rfl⟩ := Nat.exists_eq_add_one_of_ne_zero (n := m') (by omega)
    have hparts : ∀ q, Steady (bound - 1) 0 1 0 (part m q) (part m' q) := ih (by omega) (by omega)
    cases q with
    | expression floor => exact steady_expression hparts (by omega) floor c hc hlt
    | block => exact steady_block hparts (by omega) c hc hlt

end Parser
end Scriptlet
