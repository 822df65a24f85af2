import Scriptlet.Proofs.Parsing.Grammar
import Scriptlet.Proofs.Parsing.Success

/-! What the parser accepts, the grammar yields.  While the suffixes of an expression are read, the part that is
complete so far stands on some level, and the next token binds no tighter than that level allows; so a suffix always
finds its left operand on its own level or a tighter one. -/
namespace Scriptlet
namespace Grammar
open Scriptlet.Parser

namespace Level

def ceiling : Level → Strength
  | comparison => .comparison
  | summation => .summation
  | multiplication => .multiplication
  | signed => .leading
  | chain | primary => .index

/-- The level of the expressions whose suffixes all bind tighter than a strength. -/
def above : Strength → Level
  | .lowest => comparison
  | .comparison => summation
  | .summation => multiplication
  | _ => signed

theorem above_rank_le_signed (floor : Strength) : (above floor).rank ≤ signed.rank := by cases floor <;> decide

theorem above_rank_le {floor : Strength} {level : Level} (h : floor < level.ceiling) :
    (above floor).rank ≤ level.rank := by
  revert h
  cases floor <;> cases level <;> decide

theorem above_ceiling {level : Level} {kind : Kind} {op : Operator} (hop : (kind, op) ∈ level.operators) :
    above level.ceiling = level.next := by
  cases level <;> simp_all [operators, above, ceiling, next]

theorem rank_le_of_operators {level tight : Level} {kind : Kind} {op : Operator}
    (hop : (kind, op) ∈ level.operators) (h : ¬tight.ceiling < level.ceiling) : level.rank ≤ tight.rank := by
  have hlevel : level.rank < signed.rank := by cases level <;> simp_all [operators, rank]
  revert h hlevel
  cases level <;> cases tight <;> decide

theorem chain_rank_le {level : Level} {s : Strength} (hs : .leading < s) (h : ¬level.ceiling < s) :
    chain.rank ≤ level.rank := by
  revert hs h
  cases level <;> cases s <;> decide

end Level

theorem suffix_binary {kind : Kind} {op : Operator} {s : Strength}
    (h : Suffix.ofKind? kind = some (.binary op s)) :
    ∃ level : Level, (kind, op) ∈ level.operators ∧ level.ceiling = s := by
  cases kind <;> simp only [Suffix.ofKind?, Option.some.injEq, Suffix.binary.injEq, reduceCtorEq] at h <;>
    obtain ⟨rfl, rfl⟩ := h
  case lt | gt | eq | neq | lteq | gteq => exact ⟨.comparison, by decide, rfl⟩
  case plus | minus => exact ⟨.summation, by decide, rfl⟩
  case asterisk | slash => exact ⟨.multiplication, by decide, rfl⟩

theorem suffix_closing {kind : Kind} {op : Operator} (h : Suffix.ofKind? kind = some (.closing op)) :
    (kind, op) ∈ steps := by
  cases kind <;> simp_all [Suffix.ofKind?, steps]

theorem suffix_call {kind : Kind} (h : Suffix.ofKind? kind = some .call) : kind = .lparen := by
  cases kind <;> simp_all [Suffix.ofKind?]

theorem suffix_index {kind : Kind} (h : Suffix.ofKind? kind = some .index) : kind = .lsquare := by
  cases kind <;> simp_all [Suffix.ofKind?]

theorem ne_eof_of_suffix {kind : Kind} {suffix : Suffix} (h : Suffix.ofKind? kind = some suffix) : kind ≠ .eof := by
  rintro rfl
  simp [Suffix.ofKind?] at h

theorem not_mem_carriers {kind : Kind} (h : ¬.lowest < Strength.ofKind kind) : kind ∉ carriers := by
  revert h
  cases kind <;> decide

/-- `ts` starts with tokens that write `p`, and what is ahead at `c` follows them. -/
def Spans (p : Phrase) (ts : List Token) (c : Cursor) : Prop := ∃ w, ts = w ++ c.ahead ∧ Yields p w

theorem ahead_eq_cons (input : Input) (h : input.peek.kind ≠ .eof) :
    input.ahead = input.peek :: input.advance.ahead := by
  cases hahead : input.ahead with
  | nil => simp [Input.peek, hahead, Token.eof] at h
  | cons t ts => simp [Input.peek, Input.advance, hahead]

theorem Spans.of_advance {p : Phrase} {input : Input} {c : Cursor} (hp : p.isFilled)
    (h : Spans p (input.advance.current :: input.advance.ahead) c) : Spans p input.ahead c := by
  obtain ⟨w, hw, hy⟩ := h
  obtain ⟨t, w, rfl⟩ := List.exists_cons_of_ne_nil (hy.ne_nil hp)
  have ht : input.peek = t := (List.cons.inj hw).1
  have hne : input.peek.kind ≠ .eof := ht ▸ hy.kind_ne_eof t (by simp)
  exact ⟨t :: w, (ahead_eq_cons input hne).trans hw, hy⟩

/-- Parts are read as the grammar has them, and an expression goes on as long as its floor lets it. -/
structure Reads (inner : Part → Attempt Node) : Prop where
  expression : ∀ {floor c e c'}, inner (.expression floor) c = .ok (e, c') →
    Spans (.expression (Level.above floor) e) (c.current :: c.ahead) c' ∧ ¬floor < Strength.ofKind c'.peek.kind
  block : ∀ {c b c'}, inner .block c = .ok (b, c') → Spans (.block b) (c.current :: c.ahead) c'

section
variable {α : Type} {c c' : Cursor} {inner : Part → Attempt Node} (hinner : Reads inner)
include hinner

theorem lowest_spans {input : Input} {e : Node} (h : inner (.expression .lowest) input.advance = .ok (e, c')) :
    Spans (.expression .comparison e) input.ahead c' ∧ c'.peek.kind ∉ carriers := by
  obtain ⟨hspans, hstop⟩ := hinner.expression h
  exact ⟨hspans.of_advance rfl, not_mem_carriers hstop⟩

theorem block_spans {input : Input} {b : Node} (h : inner .block input.advance = .ok (b, c')) :
    Spans (.block b) input.ahead c' :=
  (hinner.block h).of_advance rfl

theorem condition_spans {e : Node} (h : condition inner c = .ok (e, c')) : Spans (.condition e) c.ahead c' := by
  obtain ⟨ho, c₁, he, hc, rfl⟩ := condition_eq_ok.mp h
  obtain ⟨⟨w, hw, hy⟩, -⟩ := lowest_spans hinner he
  refine ⟨c.peek :: (w ++ [c₁.peek]), ?_, .condition ho hc hy⟩
  rw [ahead_eq_cons c.toInput (by simp [ho]), hw, ahead_eq_cons c₁.toInput (by simp [hc])]
  simp

theorem grouped_spans {e : Node} (hk : c.current.kind = .lparen) (h : grouped inner c = .ok (e, c')) :
    Spans (.expression .primary e) (c.current :: c.ahead) c' := by
  obtain ⟨c₁, he, hc, rfl⟩ := grouped_eq_ok.mp h
  obtain ⟨⟨w, hw, hy⟩, -⟩ := lowest_spans hinner he
  refine ⟨c.current :: (w ++ [c₁.peek]), ?_, .group hk hc hy⟩
  rw [hw, ahead_eq_cons c₁.toInput (by simp [hc])]
  simp

theorem conditional_spans {e : Node} (hk : c.current.kind = .ifWord) (h : conditional inner c = .ok (e, c')) :
    Spans (.expression .primary e) (c.current :: c.ahead) c' := by
  obtain ⟨test, c₁, htest, yes, c₂, hyes, h⟩ := conditional_eq_ok.mp h
  obtain ⟨w, hw, hy⟩ := condition_spans hinner htest
  obtain ⟨w', hw', hy'⟩ := block_spans hinner hyes
  rcases h with ⟨helse, no, hno, rfl⟩ | ⟨-, rfl, rfl⟩
  · obtain ⟨w'', hw'', hy''⟩ := block_spans hinner hno
    refine ⟨c.current :: (w ++ (w' ++ c₂.peek :: w'')), ?_, .ifElse hk helse hy hy' hy''⟩
    rw [hw, hw', ahead_eq_cons c₂.toInput (by simp [helse]), hw'']
    simp
  · refine ⟨c.current :: (w ++ w'), ?_, .ifThen hk hy hy'⟩
    rw [hw, hw']
    simp

end

section
variable {α : Type} {c c' : Cursor} {item : Attempt α} {f : α → Phrase}
  (hitem : ∀ {c c' : Cursor} {a : α}, item c = .ok (a, c') → Spans (f a) (c.current :: c.ahead) c')
  (hf : ∀ a, (f a).isFilled)
include hitem hf

theorem moreItems_spans {bound : Nat} {as : List α} {p : Phrase} {w : List Token} (hp : Yields p w)
    (h : moreItems item bound c = .ok (as, c')) : Spans (.items (p :: as.map f)) (w ++ c.ahead) c' := by
  induction bound generalizing c as p w with
  | zero =>
    obtain ⟨rfl, rfl⟩ := moreItems_zero_eq_ok.mp h
    exact ⟨w, rfl, .lastItem hp⟩
  | succ bound ih =>
    rcases moreItems_succ_eq_ok.mp h with ⟨hcomma, a, c₁, ha, others, hothers, rfl⟩ | ⟨-, rfl, rfl⟩
    · obtain ⟨w₁, hw₁, hy₁⟩ := (hitem ha).of_advance (hf a)
      obtain ⟨w₂, hw₂, hy₂⟩ := ih hy₁ hothers
      refine ⟨w ++ c.peek :: w₂, ?_, .moreItems hcomma hp hy₂⟩
      rw [ahead_eq_cons c.toInput (by simp [hcomma]), hw₁, hw₂]
      simp
    · exact ⟨w, rfl, .lastItem hp⟩

theorem items_spans {closing : Kind} (hclosing : closing ≠ .eof) {as : List α}
    (h : items closing item c = .ok (as, c')) : ∃ w t, c.ahead = w ++ t :: c'.ahead ∧ t.kind = closing ∧
      Yields (.items (as.map f)) w := by
  rcases items_eq_ok.mp h with ⟨hk, rfl, rfl⟩ | ⟨-, a, c₁, ha, others, c₂, hothers, hk, rfl, rfl⟩
  · exact ⟨[], c.peek, ahead_eq_cons c.toInput (by simp [hk, hclosing]), hk, .noItems⟩
  · obtain ⟨w, hw, hy⟩ := (hitem ha).of_advance (hf a)
    obtain ⟨w', hw', hy'⟩ := moreItems_spans hitem hf hy hothers
    refine ⟨w', c₂.peek, ?_, hk, hy'⟩
    rw [hw, hw', ahead_eq_cons c₂.toInput (by simp [hk, hclosing])]

end

theorem name_spans {c c' : Cursor} {x : String} (h : (name : Attempt String) c = .ok (x, c')) :
    Spans (.name x) (c.current :: c.ahead) c' := by
  obtain ⟨hk, rfl, rfl⟩ := name_eq_ok.mp h
  exact ⟨[c.current], rfl, .name hk⟩

theorem integer?_eq_some {lexeme : String} {n : Int} :
    integer? lexeme = some n ↔ ∃ m : Nat, IsLiteral lexeme m ∧ (m : Int) = n := by
  unfold integer? IsLiteral maxDigits maxLiteral
  by_cases h : lexeme.toList.length ≤ 4300
  · simp [h, Option.bind_eq_some_iff, and_assoc]
  · simp [h]

theorem not_index_lt (s : Strength) : ¬.index < s := by cases s <;> decide

section
variable {c c' : Cursor} {inner : Part → Attempt Node} (hinner : Reads inner)
include hinner

theorem expressions_spans {c c' : Cursor} {e : Node} (h : inner (.expression .lowest) c = .ok (e, c')) :
    Spans (.expression .comparison e) (c.current :: c.ahead) c' :=
  (hinner.expression h).1

theorem function_spans {e : Node} (hk : c.current.kind = .fnWord) (h : function inner c = .ok (e, c')) :
    Spans (.expression .primary e) (c.current :: c.ahead) c' := by
  obtain ⟨ho, params, c₁, hparams, body, hbody, rfl⟩ := function_eq_ok.mp h
  obtain ⟨w, t, hw, ht, hy⟩ := items_spans name_spans (fun _ => rfl) (by decide) hparams
  obtain ⟨w', hw', hy'⟩ := block_spans hinner hbody
  refine ⟨c.current :: c.peek :: (w ++ t :: w'), ?_, .fn hk ho ht hy hy'⟩
  have hahead : c.advance.ahead = w ++ t :: c₁.ahead := hw
  rw [ahead_eq_cons c.toInput (by simp [ho]), hahead, hw']
  simp

theorem array_spans {es : List Node} (hk : c.current.kind = .lsquare)
    (h : items .rsquare (inner (.expression .lowest)) c = .ok (es, c')) :
    Spans (.expression .primary (.array es)) (c.current :: c.ahead) c' := by
  obtain ⟨w, t, hw, ht, hy⟩ := items_spans (expressions_spans hinner) (fun _ => rfl) (by decide) h
  exact ⟨c.current :: (w ++ [t]), by simp [hw], .array hk ht hy⟩

/-- A sign reaches no further than the suffixes of its operand. -/
theorem prefixed_spans {op : Operator} {e : Node} (hop : (c.current.kind, op) ∈ signs)
    (h : prefixed inner op c = .ok (e, c')) :
    Spans (.expression .signed e) (c.current :: c.ahead) c' ∧ ¬.leading < Strength.ofKind c'.peek.kind := by
  obtain ⟨operand, he, rfl⟩ := prefixed_eq_ok.mp h
  obtain ⟨hspans, hstop⟩ := hinner.expression he
  obtain ⟨w, hw, hy⟩ := hspans.of_advance rfl
  exact ⟨⟨c.current :: w, by simp [hw], .sign hop hy⟩, hstop⟩

theorem primary_spans {e : Node} (h : primary inner c = .ok (e, c')) :
    ∃ level : Level, Spans (.expression level e) (c.current :: c.ahead) c' ∧
      Level.signed.rank ≤ level.rank ∧ ¬level.ceiling < Strength.ofKind c'.peek.kind := by
  have of_primary (hspans : Spans (.expression .primary e) (c.current :: c.ahead) c') :
      ∃ level : Level, Spans (.expression level e) (c.current :: c.ahead) c' ∧
        Level.signed.rank ≤ level.rank ∧ ¬level.ceiling < Strength.ofKind c'.peek.kind :=
    ⟨.primary, hspans, by decide, not_index_lt _⟩
  cases hk : c.current.kind <;> simp only [primary_eq, hk] at h
  case int =>
    cases hn : integer? c.current.lexeme with
    | none => simp [hn] at h
    | some n =>
      simp only [hn, pure_eq_ok] at h
      obtain ⟨rfl, rfl⟩ := h
      obtain ⟨m, hm, rfl⟩ := integer?_eq_some.mp hn
      exact of_primary ⟨[_], rfl, .int hk hm⟩
  case string =>
    obtain ⟨rfl, rfl⟩ := pure_eq_ok.mp h
    exact of_primary ⟨[_], rfl, .str hk⟩
  case trueWord =>
    obtain ⟨rfl, rfl⟩ := pure_eq_ok.mp h
    exact of_primary ⟨[_], rfl, .trueWord hk⟩
  case falseWord =>
    obtain ⟨rfl, rfl⟩ := pure_eq_ok.mp h
    exact of_primary ⟨[_], rfl, .falseWord hk⟩
  case identifier =>
    obtain ⟨rfl, rfl⟩ := pure_eq_ok.mp h
    exact of_primary ⟨[_], rfl, .ident hk⟩
  case minus | neg =>
    obtain ⟨hspans, hstop⟩ := prefixed_spans hinner (by simp [hk, signs]) h
    exact ⟨.signed, hspans, Nat.le_refl _, hstop⟩
  case lparen => exact of_primary (grouped_spans hinner hk h)
  case ifWord => exact of_primary (conditional_spans hinner hk h)
  case fnWord => exact of_primary (function_spans hinner hk h)
  case lsquare =>
    obtain ⟨es, hes, rfl⟩ := array_eq_ok.mp h
    exact of_primary (array_spans hinner hk hes)
  all_goals exact (fail_eq_ok.mp h).elim

/-- A suffix finds its left operand on its own level or a tighter one, and leaves a token behind that binds no tighter
than the longer expression allows. -/
theorem extend_spans {floor : Strength} {suffix : Suffix} {level : Level} {left longer : Node} {w : List Token}
    (hleft : Yields (.expression level left) w) (hsuffix : Suffix.ofKind? c.current.kind = some suffix)
    (hfloor : floor < suffix.strength) (hceiling : ¬level.ceiling < suffix.strength)
    (h : extend inner left suffix c = .ok (longer, c')) :
    ∃ (level' : Level) (w' : List Token), c.ahead = w' ++ c'.ahead ∧
      Yields (.expression level' longer) (w ++ c.current :: w') ∧
      (Level.above floor).rank ≤ level'.rank ∧ ¬level'.ceiling < Strength.ofKind c'.peek.kind := by
  have of_chain (w' : List Token) (hw' : c.ahead = w' ++ c'.ahead)
      (hy : Yields (.expression .chain longer) (w ++ c.current :: w')) :
      ∃ (level' : Level) (w' : List Token), c.ahead = w' ++ c'.ahead ∧
        Yields (.expression level' longer) (w ++ c.current :: w') ∧
        (Level.above floor).rank ≤ level'.rank ∧ ¬level'.ceiling < Strength.ofKind c'.peek.kind :=
    ⟨.chain, w', hw', hy, Nat.le_trans (Level.above_rank_le_signed floor) (by decide), not_index_lt _⟩
  -- Only an operator between operands leaves the chain for a weaker level.
  cases suffix with
  | binary op s =>
    obtain ⟨level', hop, rfl⟩ := suffix_binary hsuffix
    obtain ⟨right, hright, rfl⟩ := extend_binary_eq_ok.mp h
    obtain ⟨hspans, hstop⟩ := hinner.expression hright
    obtain ⟨w', hw', hy'⟩ := hspans.of_advance rfl
    rw [Level.above_ceiling hop] at hy'
    have hy := hleft.weaken (Level.rank_le_of_operators hop hceiling)
    exact ⟨level', w', hw', .binary hop hy hy', Level.above_rank_le hfloor, hstop⟩
  | closing op =>
    obtain ⟨rfl, rfl⟩ := extend_closing_eq_ok.mp h
    have hy := hleft.weaken (Level.chain_rank_le (s := .postfixed) (by decide) hceiling)
    exact of_chain [] rfl (.step (suffix_closing hsuffix) hy)
  | call =>
    obtain ⟨hcallable, args, hargs, rfl⟩ := extend_call_eq_ok.mp h
    have hy := hleft.weaken (Level.chain_rank_le (s := .call) (by decide) hceiling)
    obtain ⟨w', t, hw', ht, hy'⟩ := items_spans (expressions_spans hinner) (fun _ => rfl) (by decide) hargs
    exact of_chain (w' ++ [t]) (by simp [hw']) (.call hcallable (suffix_call hsuffix) ht hy hy')
  | index =>
    obtain ⟨hindexable, i, c₁, hi, ⟨hk, rfl⟩, rfl⟩ := extend_index_eq_ok.mp h
    have hy := hleft.weaken (Level.chain_rank_le (s := .index) (by decide) hceiling)
    obtain ⟨⟨w', hw', hy'⟩, -⟩ := lowest_spans hinner hi
    have hahead := ahead_eq_cons c₁.toInput (by simp [hk])
    exact of_chain (w' ++ [c₁.peek]) (by simp [hw', hahead])
      (.index hindexable (suffix_index hsuffix) hk hy hy')

theorem suffixes_spans {floor : Strength} {bound : Nat} {level : Level} {left e : Node} {w : List Token}
    (hleft : Yields (.expression level left) w) (hlevel : (Level.above floor).rank ≤ level.rank)
    (hceiling : ¬level.ceiling < Strength.ofKind c.peek.kind) (hbound : c.ahead.length ≤ bound)
    (h : suffixes inner floor bound left c = .ok (e, c')) :
    Spans (.expression (Level.above floor) e) (w ++ c.ahead) c' ∧ ¬floor < Strength.ofKind c'.peek.kind := by
  -- Each round carries `left` on to a longer expression; that it stands on a level above the floor, and that the next
  -- token binds no tighter than the ceiling of that level, holds before every round.
  induction bound generalizing c level left w with
  | zero =>
    obtain ⟨rfl, rfl⟩ := suffixes_zero_eq_ok.mp h
    have hnil : c.ahead = [] := List.eq_nil_of_length_eq_zero (by omega)
    have hpeek : c.peek = .eof := by simp [Input.peek, hnil]
    exact ⟨⟨w, rfl, hleft.weaken hlevel⟩, by rw [hpeek]; exact not_lt_lowest floor⟩
  | succ bound ih =>
    rcases suffixes_succ_eq_ok.mp h with ⟨hstop, rfl, rfl⟩ | ⟨suffix, hsuffix, hfloor, longer, c₁, hlonger, h⟩
    · exact ⟨⟨w, rfl, hleft.weaken hlevel⟩, hstop⟩
    · have hstrength : Strength.ofKind c.peek.kind = suffix.strength := by simp [Strength.ofKind, hsuffix]
      have hahead := ahead_eq_cons c.toInput (ne_eof_of_suffix hsuffix)
      obtain ⟨level', w', hw', hy', hlevel', hceiling'⟩ :=
        extend_spans hinner hleft hsuffix hfloor (hstrength ▸ hceiling) hlonger
      have hw : c.ahead = c.advance.current :: (w' ++ c₁.ahead) := hahead.trans (congrArg _ hw')
      have hlength : c₁.ahead.length ≤ bound := by
        have := congrArg List.length hw
        simp only [List.length_cons, List.length_append] at this
        omega
      have hrest := ih hy' hlevel' hceiling' hlength h
      rwa [List.append_assoc, List.cons_append, ← hw] at hrest

theorem expression_spans {floor : Strength} {e : Node} (h : expression inner floor c = .ok (e, c')) :
    Spans (.expression (Level.above floor) e) (c.current :: c.ahead) c' ∧ ¬floor < Strength.ofKind c'.peek.kind := by
  obtain ⟨first, c₁, hfirst, hrest⟩ := expression_eq_ok.mp h
  obtain ⟨level, ⟨w, hw, hy⟩, hlevel, hceiling⟩ := primary_spans hinner hfirst
  rw [hw]
  exact suffixes_spans hinner hy (Nat.le_trans (Level.above_rank_le_signed floor) hlevel) hceiling (Nat.le_refl _) hrest

theorem letStatement_spans {s : Node} (hk : c.current.kind = .letWord) (h : letStatement inner c = .ok (s, c')) :
    Spans (.statement s) (c.current :: c.ahead) c' ∧ c'.peek.kind ∉ carriers := by
  obtain ⟨hname, hassign, e, he, rfl⟩ := letStatement_eq_ok.mp h
  obtain ⟨⟨w, hw, hy⟩, hend⟩ := lowest_spans hinner he
  have hahead := ahead_eq_cons c.toInput (by simp [hname])
  have hahead' := ahead_eq_cons c.advance.toInput (by simp [hassign])
  exact ⟨⟨c.current :: c.peek :: c.advance.peek :: w, by simp [hahead, hahead', hw],
    .letStmt hk hname rfl hassign hy⟩, hend⟩

theorem returnStatement_spans {s : Node} (hk : c.current.kind = .returnWord)
    (h : returnStatement inner c = .ok (s, c')) :
    Spans (.statement s) (c.current :: c.ahead) c' ∧ c'.peek.kind ∉ carriers := by
  obtain ⟨e, he, rfl⟩ := returnStatement_eq_ok.mp h
  obtain ⟨⟨w, hw, hy⟩, hend⟩ := lowest_spans hinner he
  exact ⟨⟨c.current :: w, by simp [hw], .returnStmt hk hy⟩, hend⟩

theorem whileStatement_spans {s : Node} (hk : c.current.kind = .whileWord)
    (h : whileStatement inner c = .ok (s, c')) :
    Spans (.statement s) (c.current :: c.ahead) c' ∧ endsOpen s = false := by
  obtain ⟨test, c₁, htest, body, hbody, rfl⟩ := whileStatement_eq_ok.mp h
  obtain ⟨w, hw, hy⟩ := condition_spans hinner htest
  obtain ⟨w', hw', hy'⟩ := block_spans hinner hbody
  exact ⟨⟨c.current :: (w ++ w'), by simp [hw, hw'], .whileStmt hk hy hy'⟩, rfl⟩

theorem exprStatement_spans {e : Node} (h : expression inner .lowest c = .ok (e, c')) :
    Spans (.statement (.exprStmt e)) (c.current :: c.ahead) c' ∧ c'.peek.kind ∉ carriers := by
  obtain ⟨⟨w, hw, hy⟩, hstop⟩ := expression_spans hinner h
  exact ⟨⟨w, hw, .exprStmt hy⟩, not_mem_carriers hstop⟩

theorem statement_spans {s : Node} (h : statement inner c = .ok (s, c')) :
    Spans (.statement s) (c.current :: c.ahead) c' ∧ (endsOpen s → c'.peek.kind ∉ carriers) := by
  rcases statement_eq_ok.mp h with ⟨hk, h⟩ | ⟨hk, h⟩ | ⟨hk, h⟩ | ⟨-, e, he, rfl⟩
  · obtain ⟨hspans, hend⟩ := letStatement_spans hinner hk h
    exact ⟨hspans, fun _ => hend⟩
  · obtain ⟨hspans, hend⟩ := returnStatement_spans hinner hk h
    exact ⟨hspans, fun _ => hend⟩
  · obtain ⟨hspans, hclosed⟩ := whileStatement_spans hinner hk h
    exact ⟨hspans, by simp [hclosed]⟩
  · obtain ⟨hspans, hend⟩ := exprStatement_spans hinner he
    exact ⟨hspans, fun _ => hend⟩

end

theorem peek_eq_of_head? {input : Input} {w ts : List Token} {t : Token} (h : input.ahead = w ++ ts)
    (ht : t ∈ w.head?) : input.peek = t := by
  obtain ⟨w, rfl⟩ := List.head?_eq_some_iff.mp ht
  simp [Input.peek, h]

/-- The place `c` comes right after `w` in `ts`, or `w` is all of `ts` and the place is the end. -/
def IsPast (c : Cursor) (w ts : List Token) : Prop := ts = w ++ c.current :: c.ahead ∨ ts = w ∧ c.current = .eof

theorem advance_isPast (input : Input) : IsPast input.advance [] input.ahead := by
  cases hahead : input.ahead with
  | nil => exact .inr ⟨rfl, by simp [Input.advance, Input.peek, hahead]⟩
  | cons t ts => exact .inl (by simp [Input.advance, Input.peek, hahead])

namespace IsPast
variable {c : Cursor} {w ts : List Token}

theorem append (h : IsPast c w ts) (before : List Token) : IsPast c (before ++ w) (before ++ ts) := by
  rcases h with rfl | ⟨rfl, heof⟩
  · exact .inl (List.append_assoc _ _ _).symm
  · exact .inr ⟨rfl, heof⟩

theorem peek_eq {input : Input} {t : Token} (h : IsPast c w input.ahead) (ht : t ∈ w.head?) : input.peek = t := by
  rcases h with h | ⟨h, -⟩
  · exact peek_eq_of_head? h ht
  · exact peek_eq_of_head? (h.trans (List.append_nil w).symm) ht

theorem of_kind (h : IsPast c w ts) (hk : c.current.kind ≠ .eof) : ts = w ++ c.current :: c.ahead := by
  rcases h with h | ⟨-, heof⟩
  · exact h
  · exact (hk (congrArg Token.kind heof)).elim

end IsPast

section
variable {c c' : Cursor} {inner : Part → Attempt Node} (hinner : Reads inner)
include hinner

theorem statements_spans {input : Input} {bound : Nat} {ss : List Node}
    (h : Parser.statements inner bound input.advance = .ok (ss, c')) :
    ∃ w, IsPast c' w input.ahead ∧ Yields (.statements ss) w := by
  induction bound generalizing input ss with
  | zero =>
    obtain ⟨rfl, rfl⟩ := pure_eq_ok.mp h
    exact ⟨[], advance_isPast input, .noStatements⟩
  | succ bound ih =>
    rcases statements_succ_eq_ok.mp h with ⟨-, rfl, rfl⟩ | ⟨-, s, c₁, hs, others, hothers, rfl⟩
    · exact ⟨[], advance_isPast input, .noStatements⟩
    · obtain ⟨hspans, hend⟩ := statement_spans hinner hs
      obtain ⟨w, hw, hy⟩ := hspans.of_advance rfl
      obtain ⟨w', hpast, hy'⟩ := ih hothers
      refine ⟨w ++ w', hw ▸ hpast.append w, .moreStatements hy hy' ?_⟩
      intro hopen t ht
      exact hpast.peek_eq ht ▸ hend hopen

theorem parsed_block_spans {b : Node} (h : Parser.block inner c = .ok (b, c')) :
    Spans (.block b) (c.current :: c.ahead) c' := by
  obtain ⟨ho, ss, hss, hc, rfl⟩ := block_eq_ok.mp h
  obtain ⟨w, hpast, hy⟩ := statements_spans hinner hss
  have hahead := hpast.of_kind (by simp [hc])
  exact ⟨c.current :: (w ++ [c'.current]), by simp [hahead], .block ho hc hy⟩

end

/-- Parts keep to the grammar however deep they may nest. -/
theorem part_reads (bound : Nat) : Reads (part bound) := by
  induction bound with
  | zero => exact ⟨fun h => (exhaust_eq_ok.mp h).elim, fun h => (exhaust_eq_ok.mp h).elim⟩
  | succ bound ih => exact ⟨expression_spans ih, parsed_block_spans ih⟩

theorem program_statements_yields {inner : Part → Attempt Node} (hinner : Reads inner) {bound : Nat} {input rest : Input}
    {ss : List Node} (hbound : input.ahead.length ≤ bound) (heof : ∀ t ∈ input.ahead, t.kind ≠ .eof)
    (h : Attempt.untilEnd inner bound input = .ok (ss, rest)) : Yields (.statements ss) input.ahead := by
  induction bound generalizing input ss with
  | zero =>
    obtain ⟨rfl, rfl⟩ := Prod.mk.inj (Except.ok.inj h)
    rw [List.eq_nil_of_length_eq_zero (Nat.le_zero.mp hbound)]
    exact .noStatements
  | succ bound ih =>
    rcases Attempt.untilEnd_succ_eq_ok.mp h with ⟨hpeek, rfl, rfl⟩ | ⟨hpeek, s, c, hs, others, hothers, rfl⟩
    · cases hahead : input.ahead with
      | nil => exact .noStatements
      | cons t ts =>
        simp only [Input.peek, hahead, List.head?_cons, Option.getD_some] at hpeek
        exact (heof t (by simp [hahead]) (by rw [hpeek]; rfl)).elim
    · obtain ⟨hspans, hend⟩ := statement_spans hinner hs
      obtain ⟨w, hw, hy⟩ := hspans.of_advance rfl
      have hlength : w.length + c.ahead.length ≤ bound + 1 := by simpa [hw] using hbound
      have hne : 0 < w.length := List.length_pos_iff.mpr (hy.ne_nil rfl)
      have hy' := ih (by omega) (fun t ht => heof t (by simp [hw, ht])) hothers
      rw [hw]
      refine .moreStatements hy hy' ?_
      intro hopen t ht
      exact peek_eq_of_head? (List.append_nil c.ahead).symm ht ▸ hend hopen

end Grammar
end Scriptlet
