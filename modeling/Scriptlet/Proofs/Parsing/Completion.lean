import Scriptlet.Proofs.Parsing.Failure
import Scriptlet.Proofs.Parsing.Soundness

/-! What the parser has read can always be completed.  Wherever it fails, the tokens before that place are the start of
a phrase of the grammar, and a few tokens of fixed kinds are enough to write the rest. -/
namespace Scriptlet
namespace Grammar
open Scriptlet.Parser Attempt

def filler : Kind → Token
  | .assign => ⟨.assign, "="⟩
  | .lparen => ⟨.lparen, "("⟩
  | .rparen => ⟨.rparen, ")"⟩
  | .rsquare => ⟨.rsquare, "]"⟩
  | .lbrace => ⟨.lbrace, "\x7b"⟩
  | .rbrace => ⟨.rbrace, "\x7d"⟩
  | _ => ⟨.identifier, "x"⟩

/-- The tokens of `ts` before the place of a failure start a phrase, and fillers complete it. -/
def Completes {α : Type} (f : α → Phrase) (ts : List Token) (failure : Refusal) : Prop :=
  ∃ (w : List Token) (kinds : List Kind) (a : α), IsPast failure.place w ts ∧ Yields (f a) (w ++ kinds.map filler)

section
variable {α β : Type} {f : α → Phrase} {g : β → Phrase} {ts : List Token} {failure : Refusal}

theorem Completes.surround (h : Completes f ts failure) (before : List Token) (after : List Kind)
    (hg : ∀ a w, Yields (f a) w → ∃ b, Yields (g b) (before ++ (w ++ after.map filler))) :
    Completes g (before ++ ts) failure := by
  obtain ⟨w, kinds, a, hpast, hy⟩ := h
  obtain ⟨b, hb⟩ := hg a _ hy
  exact ⟨before ++ w, kinds ++ after, b, hpast.append before, by simpa using hb⟩

theorem Completes.prepend (h : Completes f ts failure) (before : List Token)
    (hg : ∀ a w, Yields (f a) w → ∃ b, Yields (g b) (before ++ w)) : Completes g (before ++ ts) failure :=
  h.surround before [] fun a w hy => by simpa using hg a w hy

theorem completes_at {input : Input} {cause : Option ParseError} {b : β} (before : List Token) (after : List Kind)
    (hy : Yields (g b) (before ++ after.map filler)) : Completes g (before ++ input.ahead) ⟨cause, input.advance⟩ :=
  ⟨before ++ [], after, b, (advance_isPast input).append before, by simpa using hy⟩

end

theorem ahead_eq_of_kind {input : Input} {kind : Kind} (hk : input.advance.current.kind = kind) (hne : kind ≠ .eof) :
    input.ahead = input.advance.current :: input.advance.ahead :=
  ahead_eq_cons input (hk ▸ hne)

theorem yields_filler (level : Level) : Yields (.expression level (.ident "x")) [filler .identifier] :=
  .weaken level.rank_le_primary (.ident (t := filler .identifier) rfl)

theorem yields_condition : Yields (.condition (.ident "x")) [filler .lparen, filler .identifier, filler .rparen] :=
  .condition rfl rfl (yields_filler .comparison)

theorem yields_block : Yields (.block (.block [])) [filler .lbrace, filler .rbrace] :=
  .block rfl rfl .noStatements

/-- Parts that keep to the grammar, and of which nothing is read that could not be completed. -/
structure Completing (inner : Part → Attempt Node) : Prop extends Reads inner where
  expression_completes : ∀ {floor : Strength} {input : Input} {f : Refusal},
    inner (.expression floor) input.advance = .error f →
      Completes (.expression (Level.above floor)) input.ahead f
  block_completes : ∀ {input : Input} {f : Refusal},
    inner .block input.advance = .error f → Completes .block input.ahead f

section
variable {c : Cursor} {input : Input} {f : Refusal} {inner : Part → Attempt Node} (hinner : Completing inner)
include hinner

/-- Where the closing token is missing, the expression before it is complete. -/
theorem closed_completes {closing : Kind} (h : FailsToClose inner closing input.advance f) :
    Completes (.expression .comparison) input.ahead f := by
  rcases h with h | ⟨e, c₁, he, -, rfl⟩
  · exact hinner.expression_completes h
  · obtain ⟨⟨w, hw, hy⟩, -⟩ := lowest_spans hinner.toReads he
    rw [hw]
    exact completes_at w [] (by simpa using hy)

theorem condition_completes (h : condition inner c = .error f) : Completes .condition c.ahead f := by
  rcases condition_eq_error.mp h with ⟨-, rfl⟩ | ⟨ho, h⟩
  · exact completes_at [] [.lparen, .identifier, .rparen] yields_condition
  · rw [ahead_eq_cons c.toInput (by simp [ho])]
    exact (closed_completes hinner h).surround [c.peek] [.rparen] fun e w hy => ⟨e, .condition ho rfl hy⟩

theorem grouped_completes (hk : c.current.kind = .lparen) (h : grouped inner c = .error f) :
    Completes (.expression .primary) (c.current :: c.ahead) f :=
  (closed_completes hinner (grouped_eq_error.mp h)).surround [c.current] [.rparen] fun e _ hy =>
    ⟨e, .group hk rfl hy⟩

theorem conditional_completes (hk : c.current.kind = .ifWord) (h : conditional inner c = .error f) :
    Completes (.expression .primary) (c.current :: c.ahead) f := by
  rcases conditional_eq_error.mp h with htest | ⟨test, c₁, htest, h⟩
  · exact (condition_completes hinner htest).surround [c.current] [.lbrace, .rbrace] fun e w hy =>
      ⟨.ifThen e (.block []), .ifThen (w := w) hk hy yields_block⟩
  · obtain ⟨w, hw, hy⟩ := condition_spans hinner.toReads htest
    rw [hw]
    rcases h with hyes | ⟨yes, c₂, hyes, helse, hno⟩
    · exact (hinner.block_completes hyes).prepend (c.current :: w) fun b w' hy' => ⟨_, .ifThen hk hy hy'⟩
    · obtain ⟨w', hw', hy'⟩ := block_spans hinner.toReads hyes
      rw [hw', ahead_eq_cons c₂.toInput (by simp [helse])]
      have hrest := (hinner.block_completes hno).prepend (g := .expression .primary)
        (c.current :: (w ++ (w' ++ [c₂.peek]))) fun b w'' hy'' =>
          ⟨_, by simpa using Yields.ifElse hk helse hy hy' hy''⟩
      simpa using hrest

end

section
variable {α : Type} {c : Cursor} {input : Input} {failure : Refusal} {item : Attempt α} {f : α → Phrase}
  (hspans : ∀ {c c' : Cursor} {a : α}, item c = .ok (a, c') → Spans (f a) (c.current :: c.ahead) c')
  (hf : ∀ a, (f a).isFilled)
  (hcompletes : ∀ {input : Input} {failure : Refusal}, item input.advance = .error failure →
    Completes f input.ahead failure)
include hspans hf hcompletes

theorem moreItems_completes {bound : Nat} {a : α} {w : List Token} (ha : Yields (f a) w)
    (h : moreItems item bound c = .error failure) :
    Completes (fun as : List α => .items (f a :: as.map f)) (w ++ c.ahead) failure := by
  induction bound generalizing c a w with
  | zero => cases h
  | succ bound ih =>
    obtain ⟨hcomma, h⟩ := moreItems_succ_eq_error.mp h
    rw [ahead_eq_cons c.toInput (by simp [hcomma])]
    rcases h with hitem | ⟨b, c₁, hitem, hothers⟩
    · have hrest := (hcompletes hitem).prepend (g := fun as : List α => .items (f a :: as.map f)) (w ++ [c.peek])
        fun b w' hb => ⟨[b], by simpa using Yields.moreItems hcomma ha (.lastItem hb)⟩
      simpa using hrest
    · obtain ⟨w₁, hw₁, hb⟩ := (hspans hitem).of_advance (hf b)
      have hrest := (ih hb hothers).prepend (g := fun as : List α => .items (f a :: as.map f)) (w ++ [c.peek])
        fun bs w' hbs => ⟨b :: bs, by simpa using Yields.moreItems hcomma ha hbs⟩
      rw [hw₁]
      simpa using hrest

theorem items_completes {closing : Kind} (h : items closing item c = .error failure) :
    Completes (fun as : List α => .items (as.map f)) c.ahead failure := by
  obtain ⟨-, hitem | ⟨a, c₁, hitem, h⟩⟩ := items_eq_error.mp h
  · exact (hcompletes hitem).prepend [] fun a w ha => ⟨[a], .lastItem ha⟩
  · obtain ⟨w, hw, ha⟩ := (hspans hitem).of_advance (hf a)
    rw [hw]
    rcases h with hothers | ⟨others, c₂, hothers, -, rfl⟩
    · exact (moreItems_completes hspans hf hcompletes ha hothers).prepend [] fun as w' has => ⟨a :: as, has⟩
    · obtain ⟨w', hw', has⟩ := moreItems_spans hspans hf ha hothers
      rw [hw']
      exact completes_at (b := a :: others) w' [] (by simpa using has)

end

theorem name_completes {input : Input} {f : Refusal} (h : (name : Attempt String) input.advance = .error f) :
    Completes .name input.ahead f := by
  obtain ⟨-, rfl⟩ := name_eq_error.mp h
  exact completes_at [] [.identifier] (.name rfl)

section
variable {c : Cursor} {input : Input} {f : Refusal} {inner : Part → Attempt Node} (hinner : Completing inner)
include hinner

theorem expressions_completes {closing : Kind} (h : items closing (inner (.expression .lowest)) c = .error f) :
    Completes (fun es : List Node => .items (es.map (.expression .comparison))) c.ahead f :=
  items_completes (expressions_spans hinner.toReads) (fun _ => rfl) hinner.expression_completes h

theorem function_completes (hk : c.current.kind = .fnWord) (h : function inner c = .error f) :
    Completes (.expression .primary) (c.current :: c.ahead) f := by
  rcases function_eq_error.mp h with ⟨-, rfl⟩ | ⟨ho, h⟩
  · have hy : Yields (.expression .primary (.fn [] (.block []))) [c.current, filler .lparen, filler .rparen,
        filler .lbrace, filler .rbrace] := .fn (w := []) hk rfl rfl .noItems yields_block
    exact completes_at [c.current] [.lparen, .rparen, .lbrace, .rbrace] hy
  · rw [ahead_eq_cons c.toInput (by simp [ho])]
    rcases h with hparams | ⟨params, c₁, hparams, hbody⟩
    · have hnames := items_completes name_spans (fun _ => rfl) name_completes hparams
      exact hnames.surround [c.current, c.peek] [.rparen, .lbrace, .rbrace] fun params w hy =>
        ⟨.fn params (.block []), .fn (w := w) hk ho rfl hy yields_block⟩
    · obtain ⟨w, t, hw, ht, hy⟩ := items_spans name_spans (fun _ => rfl) (by decide) hparams
      have hrest := (hinner.block_completes hbody).prepend (g := .expression .primary)
        (c.current :: c.peek :: (w ++ [t])) fun b w' hy' => ⟨_, by simpa using Yields.fn hk ho ht hy hy'⟩
      have hahead : c.advance.ahead = w ++ t :: c₁.ahead := hw
      rw [hahead]
      simpa using hrest

theorem array_completes (hk : c.current.kind = .lsquare)
    (h : items .rsquare (inner (.expression .lowest)) c = .error f) :
    Completes (.expression .primary) (c.current :: c.ahead) f :=
  (expressions_completes hinner h).surround [c.current] [.rsquare] fun es _ hy => ⟨.array es, .array hk rfl hy⟩

theorem prefixed_completes {op : Operator} (hop : (c.current.kind, op) ∈ signs) (h : prefixed inner op c = .error f) :
    Completes (.expression .signed) (c.current :: c.ahead) f :=
  (hinner.expression_completes (prefixed_eq_error.mp h)).prepend [c.current] fun e _ hy =>
    ⟨.prefixOp op e, .sign hop hy⟩

theorem primary_completes (h : primary inner input.advance = .error f) :
    Completes (.expression .signed) input.ahead f := by
  have at_once {cause : ParseError} (h : (fail cause : Attempt Node) input.advance = .error f) :
      Completes (.expression .signed) input.ahead f := by
    obtain rfl := fail_eq_error.mp h
    exact completes_at [] [.identifier] (yields_filler .signed)
  have of_primary {kind : Kind} (hk : input.advance.current.kind = kind) (hne : kind ≠ .eof)
      (h : Completes (.expression .primary) (input.advance.current :: input.advance.ahead) f) :
      Completes (.expression .signed) input.ahead f := by
    rw [ahead_eq_of_kind hk hne]
    exact h.prepend [] fun e _ hy => ⟨e, hy.weaken (by decide)⟩
  cases hk : input.advance.current.kind <;> simp only [primary_eq, hk] at h
  case int =>
    cases hn : integer? input.advance.current.lexeme with
    | none => exact at_once (by simpa [hn] using h)
    | some n => simp [hn] at h
  case string | trueWord | falseWord | identifier => simp at h
  case minus | neg =>
    rw [ahead_eq_of_kind hk (by decide)]
    exact prefixed_completes hinner (by simp [hk, signs]) h
  case lparen => exact of_primary hk (by decide) (grouped_completes hinner hk h)
  case ifWord => exact of_primary hk (by decide) (conditional_completes hinner hk h)
  case fnWord => exact of_primary hk (by decide) (function_completes hinner hk h)
  case lsquare =>
    have hitems : items .rsquare (inner (.expression .lowest)) input.advance = .error f := by
      simpa [bind_eq_error] using h
    exact of_primary hk (by decide) (array_completes hinner hk hitems)
  all_goals exact at_once h

/-- A suffix fails behind its left operand, which is complete, or inside of what it adds to it. -/
theorem extend_completes {floor : Strength} {suffix : Suffix} {level : Level} {left : Node} {w : List Token}
    (hleft : Yields (.expression level left) w) (hlevel : (Level.above floor).rank ≤ level.rank)
    (hsuffix : Suffix.ofKind? input.peek.kind = some suffix) (hfloor : floor < suffix.strength)
    (hceiling : ¬level.ceiling < suffix.strength) (h : extend inner left suffix input.advance = .error f) :
    Completes (.expression (Level.above floor)) (w ++ input.ahead) f := by
  have at_suffix {cause : ParseError} : Completes (.expression (Level.above floor)) (w ++ input.ahead)
      ⟨cause, input.advance⟩ := completes_at w [] (by simpa using hleft.weaken hlevel)
  have of_chain {e : Node} {w : List Token} (hy : Yields (.expression .chain e) w) :
      Yields (.expression (Level.above floor) e) w :=
    hy.weaken (Nat.le_trans (Level.above_rank_le_signed floor) (by decide))
  have hahead : w ++ input.ahead = (w ++ [input.peek]) ++ input.advance.ahead := by
    simp [ahead_eq_cons input (ne_eof_of_suffix hsuffix)]
  cases suffix with
  | binary op s =>
    obtain ⟨level', hop, rfl⟩ := suffix_binary hsuffix
    have hy := hleft.weaken (Level.rank_le_of_operators hop hceiling)
    rw [hahead]
    refine (hinner.expression_completes (extend_binary_eq_error.mp h)).prepend _ fun right w' hy' => ?_
    rw [Level.above_ceiling hop] at hy'
    have hbinary := Yields.binary hop hy hy'
    exact ⟨.infixOp op left right, by simpa using hbinary.weaken (Level.above_rank_le hfloor)⟩
  | closing op => simp [extend] at h
  | call =>
    have hy := hleft.weaken (Level.chain_rank_le (s := .call) (by decide) hceiling)
    rcases extend_call_eq_error.mp h with ⟨-, rfl⟩ | ⟨hcallable, hargs⟩
    · exact at_suffix
    · rw [hahead]
      refine (expressions_completes hinner hargs).surround _ [.rparen] fun args w' hy' => ⟨.call left args, ?_⟩
      have hcall := of_chain (.call hcallable (suffix_call hsuffix) (c := filler .rparen) rfl hy hy')
      simpa using hcall
  | index =>
    have hy := hleft.weaken (Level.chain_rank_le (s := .index) (by decide) hceiling)
    rcases extend_index_eq_error.mp h with ⟨-, rfl⟩ | ⟨hindexable, hposition⟩
    · exact at_suffix
    · rw [hahead]
      refine (closed_completes hinner hposition).surround _ [.rsquare] fun i w' hy' => ⟨.index left i, ?_⟩
      have hindex := of_chain (.index hindexable (suffix_index hsuffix) (c := filler .rsquare) rfl hy hy')
      simpa using hindex

theorem suffixes_completes {floor : Strength} {bound : Nat} {level : Level} {left : Node} {w : List Token}
    (hleft : Yields (.expression level left) w) (hlevel : (Level.above floor).rank ≤ level.rank)
    (hceiling : ¬level.ceiling < Strength.ofKind c.peek.kind) (h : suffixes inner floor bound left c = .error f) :
    Completes (.expression (Level.above floor)) (w ++ c.ahead) f := by
  induction bound generalizing c level left w with
  | zero => cases h
  | succ bound ih =>
    obtain ⟨suffix, hsuffix, hfloor, h⟩ := suffixes_succ_eq_error.mp h
    have hstrength : Strength.ofKind c.peek.kind = suffix.strength := by simp [Strength.ofKind, hsuffix]
    rcases h with h | ⟨longer, c₁, hlonger, hrest⟩
    · exact extend_completes hinner hleft hlevel hsuffix hfloor (hstrength ▸ hceiling) h
    · obtain ⟨level', w', hw', hy', hlevel', hceiling'⟩ :=
        extend_spans hinner.toReads hleft hsuffix hfloor (hstrength ▸ hceiling) hlonger
      have hcompletes := ih hy' hlevel' hceiling' hrest
      rw [List.append_assoc, List.cons_append, ← hw'] at hcompletes
      rw [ahead_eq_cons c.toInput (ne_eof_of_suffix hsuffix)]
      exact hcompletes

theorem expression_completes {floor : Strength} (h : expression inner floor input.advance = .error f) :
    Completes (.expression (Level.above floor)) input.ahead f := by
  rcases expression_eq_error.mp h with hfirst | ⟨first, c₁, hfirst, hrest⟩
  · exact (primary_completes hinner hfirst).prepend [] fun e _ hy =>
      ⟨e, hy.weaken (Level.above_rank_le_signed floor)⟩
  · obtain ⟨level, hspans, hlevel, hceiling⟩ := primary_spans hinner.toReads hfirst
    obtain ⟨w, hw, hy⟩ := hspans.of_advance rfl
    rw [hw]
    exact suffixes_completes hinner hy (Nat.le_trans (Level.above_rank_le_signed floor) hlevel) hceiling hrest

theorem letStatement_completes (hk : c.current.kind = .letWord) (h : letStatement inner c = .error f) :
    Completes .statement (c.current :: c.ahead) f := by
  rcases letStatement_eq_error.mp h with ⟨-, rfl⟩ | ⟨hname, h⟩
  · exact completes_at [c.current] [.identifier, .assign, .identifier]
      (.letStmt (n := filler .identifier) hk rfl rfl rfl (yields_filler .comparison))
  · rw [ahead_eq_cons c.toInput (by simp [hname])]
    rcases h with ⟨-, rfl⟩ | ⟨hassign, hvalue⟩
    · exact completes_at [c.current, c.peek] [.assign, .identifier]
        (.letStmt hk hname rfl rfl (yields_filler .comparison))
    · rw [ahead_eq_cons c.advance.toInput (by simp [hassign])]
      exact (hinner.expression_completes hvalue).prepend [c.current, c.peek, c.advance.peek] fun e _ hy =>
        ⟨.letStmt c.peek.lexeme e, .letStmt hk hname rfl hassign hy⟩

theorem returnStatement_completes (hk : c.current.kind = .returnWord) (h : returnStatement inner c = .error f) :
    Completes .statement (c.current :: c.ahead) f :=
  (hinner.expression_completes (returnStatement_eq_error.mp h)).prepend [c.current] fun e _ hy =>
    ⟨.returnStmt e, .returnStmt hk hy⟩

theorem whileStatement_completes (hk : c.current.kind = .whileWord) (h : whileStatement inner c = .error f) :
    Completes .statement (c.current :: c.ahead) f := by
  rcases whileStatement_eq_error.mp h with htest | ⟨test, c₁, htest, hbody⟩
  · exact (condition_completes hinner htest).surround [c.current] [.lbrace, .rbrace] fun e w hy =>
      ⟨.whileStmt e (.block []), .whileStmt (w := w) hk hy yields_block⟩
  · obtain ⟨w, hw, hy⟩ := condition_spans hinner.toReads htest
    rw [hw]
    exact (hinner.block_completes hbody).prepend (c.current :: w) fun b _ hy' =>
      ⟨.whileStmt test b, .whileStmt hk hy hy'⟩

theorem statement_completes (h : statement inner input.advance = .error f) : Completes .statement input.ahead f := by
  rcases statement_eq_error.mp h with ⟨hk, h⟩ | ⟨hk, h⟩ | ⟨hk, h⟩ | ⟨-, h⟩
  · exact ahead_eq_of_kind hk (by decide) ▸ letStatement_completes hinner hk h
  · exact ahead_eq_of_kind hk (by decide) ▸ returnStatement_completes hinner hk h
  · exact ahead_eq_of_kind hk (by decide) ▸ whileStatement_completes hinner hk h
  · exact (expression_completes hinner h).prepend [] fun e _ hy => ⟨.exprStmt e, .exprStmt hy⟩

theorem first_completes (h : statement inner input.advance = .error f) : Completes .statements input.ahead f :=
  (statement_completes hinner h).prepend [] fun s w hy =>
    ⟨[s], by simpa using Yields.moreStatements hy .noStatements (by simp)⟩

/-- After a statement that was read, another one may be completed, or left out if it fails with its first token. -/
theorem others_completes {s : Node} (hs : statement inner input.advance = .ok (s, c))
    (h : Completes .statements c.ahead f) : Completes .statements input.ahead f := by
  obtain ⟨hspans, hend⟩ := statement_spans hinner.toReads hs
  obtain ⟨w, hw, hy⟩ := hspans.of_advance rfl
  obtain ⟨w', kinds, ss, hpast, hss⟩ := h
  rw [hw]
  cases w' with
  | nil =>
    have hone : Yields (.statements [s]) (w ++ []) := .moreStatements hy .noStatements (by simp)
    exact ⟨w ++ [], [], [s], hpast.append w, by simpa using hone⟩
  | cons t w' =>
    refine ⟨w ++ t :: w', kinds, s :: ss, hpast.append w, ?_⟩
    rw [List.append_assoc]
    refine .moreStatements hy hss fun hopen u hu => ?_
    obtain rfl : t = u := by simpa using hu
    exact hpast.peek_eq rfl ▸ hend hopen

theorem statements_completes {bound : Nat} (h : Parser.statements inner bound input.advance = .error f) :
    Completes .statements input.ahead f := by
  induction bound generalizing input with
  | zero => cases h
  | succ bound ih =>
    obtain ⟨-, hfirst | ⟨s, c₁, hfirst, hothers⟩⟩ := statements_succ_eq_error.mp h
    · exact first_completes hinner hfirst
    · exact others_completes hinner hfirst (ih hothers)

theorem block_completes (h : Parser.block inner input.advance = .error f) : Completes .block input.ahead f := by
  rcases block_eq_error.mp h with ⟨-, rfl⟩ | ⟨ho, h⟩
  · exact completes_at [] [.lbrace, .rbrace] yields_block
  · have hahead : input.ahead = [input.peek] ++ input.advance.ahead := ahead_eq_of_kind ho (by decide)
    rw [hahead]
    rcases h with hbody | ⟨ss, c₁, hbody, -, rfl⟩
    · exact (statements_completes hinner hbody).surround [input.peek] [.rbrace] fun ss _ hy =>
        ⟨.block ss, .block ho rfl hy⟩
    · obtain ⟨w, hpast, hy⟩ := statements_spans hinner.toReads hbody
      exact ⟨[input.peek] ++ w, [.rbrace], .block ss, hpast.append _, .block ho rfl hy⟩

end

/-- Nothing is read that could not be completed, however deep parts may nest. -/
theorem part_completing (bound : Nat) : Completing (part bound) := by
  induction bound with
  | zero =>
    refine ⟨part_reads 0, fun h => ?_, fun h => ?_⟩
    · obtain rfl := exhaust_eq_error.mp h
      exact completes_at [] [.identifier] (yields_filler _)
    · obtain rfl := exhaust_eq_error.mp h
      exact completes_at [] [.lbrace, .rbrace] yields_block
  | succ bound ih => exact ⟨part_reads (bound + 1), expression_completes ih, block_completes ih⟩

theorem untilEnd_completes {inner : Part → Attempt Node} (hinner : Completing inner) {bound : Nat}
    {input : Input} {f : Refusal} (h : untilEnd inner bound input = .error f) :
    Completes .statements input.ahead f := by
  induction bound generalizing input with
  | zero => cases h
  | succ bound ih =>
    obtain ⟨-, hfirst | ⟨s, c, hfirst, hothers⟩⟩ := untilEnd_succ_eq_error.mp h
    · exact first_completes hinner hfirst
    · exact others_completes hinner hfirst (ih hothers)

theorem program_completes {tokens : List Token} {f : Refusal} (h : Attempt.program tokens = .error f) :
    Completes .program tokens f :=
  (untilEnd_completes (part_completing _) h).prepend [] fun ss _ hy =>
    ⟨.program ss, .program hy⟩

end Grammar
end Scriptlet
