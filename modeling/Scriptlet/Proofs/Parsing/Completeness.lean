import Scriptlet.Proofs.Parsing.Soundness

/-! What the grammar yields, the parser accepts.  Whatever an expression of a level begins, its suffixes can go on with:
reading the tokens of the expression and then what follows is the same as reading the suffixes that follow, with the
expression as their left operand. -/
namespace Scriptlet
namespace Grammar
open Scriptlet.Parser Attempt

namespace Level

/-- An expression of the level is an operand wherever suffixes must bind tighter than `floor`. -/
structure Fits (level : Level) (floor : Strength) : Prop where
  rank_le : (above floor).rank ≤ level.rank
  floor_le : ¬.leading < floor

theorem Fits.next {level : Level} {floor : Strength} (h : level.Fits floor) : level.next.Fits floor := by
  refine ⟨Nat.le_trans h.rank_le ?_, h.floor_le⟩
  cases level <;> decide

theorem Fits.lt_ceiling {level : Level} {floor : Strength} {kind : Kind} {op : Operator} (h : level.Fits floor)
    (hop : (kind, op) ∈ level.operators) : floor < level.ceiling := by
  have hlevel : level.rank < signed.rank := by cases level <;> simp_all [operators, rank]
  have hle := h.rank_le
  revert hlevel hle
  cases level <;> cases floor <;> decide

theorem Fits.not_ceiling_lt {level : Level} {floor s : Strength} (h : level.Fits floor) (hs : ¬floor < s) :
    ¬level.ceiling < s := by
  obtain ⟨hrank, hfloor⟩ := h
  revert hrank hfloor hs
  cases level <;> cases floor <;> cases s <;> decide

theorem Fits.lt_of_leading_lt {level : Level} {floor s : Strength} (h : level.Fits floor) (hs : .leading < s) :
    floor < s :=
  Nat.lt_of_le_of_lt (Nat.not_lt.mp h.floor_le) hs

theorem next_fits_ceiling {level : Level} {kind : Kind} {op : Operator} (hop : (kind, op) ∈ level.operators) :
    level.next.Fits level.ceiling := by
  refine ⟨Nat.le_of_eq (congrArg rank (above_ceiling hop)), ?_⟩
  cases level <;> simp_all [operators] <;> decide

end Level

theorem binary_suffix {level : Level} {kind : Kind} {op : Operator} (hop : (kind, op) ∈ level.operators) :
    Suffix.ofKind? kind = some (.binary op level.ceiling) := by
  cases level <;> simp [Level.operators] at hop
  case comparison => rcases hop with ⟨rfl, rfl⟩ | ⟨rfl, rfl⟩ | ⟨rfl, rfl⟩ | ⟨rfl, rfl⟩ | ⟨rfl, rfl⟩ | ⟨rfl, rfl⟩ <;> rfl
  case summation | multiplication => rcases hop with ⟨rfl, rfl⟩ | ⟨rfl, rfl⟩ <;> rfl

theorem step_suffix {kind : Kind} {op : Operator} (hop : (kind, op) ∈ steps) :
    Suffix.ofKind? kind = some (.closing op) := by
  simp [steps] at hop
  rcases hop with ⟨rfl, rfl⟩ | ⟨rfl, rfl⟩ <;> rfl

theorem not_lowest_lt {kind : Kind} (h : kind ∉ carriers) : ¬.lowest < Strength.ofKind kind := by
  revert h
  cases kind <;> decide

def firstOf (ts : List Token) : Token := ts.head?.getD .eof

theorem peek_eq {input : Input} {ts : List Token} (h : input.ahead = ts) : input.peek = firstOf ts := h ▸ rfl

theorem firstOf_append {P : Token → Prop} {ts us : List Token} (hts : ∀ t ∈ ts.head?, P t) (hus : P (firstOf us)) :
    P (firstOf (ts ++ us)) := by
  cases ts with
  | nil => exact hus
  | cons t ts => exact hts t rfl

theorem advance_eq {input : Input} {t : Token} {ts : List Token} (h : input.ahead = t :: ts) :
    input.advance.current = t ∧ input.advance.ahead = ts := by
  simp [Input.advance, Input.peek, h]

/-- What may follow an expression of a level: nothing that binds tighter, and no second branch. -/
structure Level.Stops (level : Level) (t : Token) : Prop where
  ceiling : ¬level.ceiling < Strength.ofKind t.kind
  ne_else : t.kind ≠ .elseWord

theorem Level.Stops.next {level : Level} {t : Token} (h : level.Stops t) : level.next.Stops t := by
  refine ⟨?_, h.ne_else⟩
  have hceiling := h.ceiling
  revert hceiling
  cases level <;> cases Strength.ofKind t.kind <;> decide

theorem chain_stops {t : Token} (h : t.kind ≠ .elseWord) : Level.chain.Stops t := ⟨not_index_lt _, h⟩

theorem ne_else_of_suffix {kind : Kind} {suffix : Suffix} (h : Suffix.ofKind? kind = some suffix) :
    kind ≠ .elseWord := by
  rintro rfl
  simp [Suffix.ofKind?] at h

/-- No expression, and so no statement, starts with a token that closes something. -/
theorem primary_kind {inner : Part → Attempt Node} {c c' : Cursor} {e : Node} (h : primary inner c = .ok (e, c')) :
    c.current.kind ∉ [.rparen, .rsquare, .rbrace, .eof] := by
  intro hk
  simp only [List.mem_cons, List.not_mem_nil, or_false] at hk
  rcases hk with hk | hk | hk | hk <;> simp [primary_eq, hk] at h

theorem expression_kind {inner : Part → Attempt Node} {floor : Strength} {c c' : Cursor} {e : Node}
    (h : expression inner floor c = .ok (e, c')) : c.current.kind ∉ [.rparen, .rsquare, .rbrace, .eof] := by
  obtain ⟨_, _, hfirst, -⟩ := expression_eq_ok.mp h
  exact primary_kind hfirst

theorem statement_kind {inner : Part → Attempt Node} {c c' : Cursor} {s : Node}
    (h : statement inner c = .ok (s, c')) : c.current.kind ∉ [.rparen, .rsquare, .rbrace, .eof] := by
  rcases statement_eq_ok.mp h with ⟨hk, -⟩ | ⟨hk, -⟩ | ⟨hk, -⟩ | ⟨-, _, he, -⟩
  · simp [hk]
  · simp [hk]
  · simp [hk]
  · exact expression_kind he

theorem suffixes_stop {inner : Part → Attempt Node} {floor : Strength} {bound : Nat} {e : Node} {c : Cursor}
    (h : ¬floor < Strength.ofKind c.peek.kind) : suffixes inner floor bound e c = .ok (e, c) := by
  cases bound with
  | zero => exact suffixes_zero_eq_ok.mpr ⟨rfl, rfl⟩
  | succ bound => exact suffixes_succ_eq_ok.mpr (.inl ⟨h, rfl, rfl⟩)

/-- A parser that is started on the first of some tokens reads them all and stops before the rest. -/
def Accepts {α : Type} (p : Attempt α) (a : α) (w rest : List Token) : Prop :=
  ∀ input : Input, input.ahead = w ++ rest → ∃ c, p input.advance = .ok (a, c) ∧ c.ahead = rest

def AcceptsAhead {α : Type} (p : Attempt α) (a : α) (w rest : List Token) : Prop :=
  ∀ c : Cursor, c.ahead = w ++ rest → ∃ c', p c = .ok (a, c') ∧ c'.ahead = rest

def Begins (n : Nat) (floor : Strength) (e : Node) (w rest : List Token) : Prop :=
  ∀ input : Input, input.ahead = w ++ rest → ∃ (c : Cursor) (bound : Nat),
    c.ahead = rest ∧ rest.length ≤ bound ∧ ∀ e' c',
      (suffixes (part n) floor bound e : Attempt Node) c = .ok (e', c') →
        (expression (part n) floor : Attempt Node) input.advance = .ok (e', c')

/-- An expression of a level can begin any expression that the next token does not take it out of. -/
def AcceptedAt (level : Level) (e : Node) (w : List Token) : Prop :=
  ∀ (n : Nat) (floor : Strength) (rest : List Token), w.length ≤ n → level.Fits floor → level.Stops (firstOf rest) →
    Begins n floor e w rest

theorem AcceptedAt.accepts {level : Level} {e : Node} {w rest : List Token} {n : Nat} {floor : Strength}
    (h : AcceptedAt level e w) (hn : w.length < n) (hfits : level.Fits floor)
    (hstop : ¬floor < Strength.ofKind (firstOf rest).kind) (helse : (firstOf rest).kind ≠ .elseWord) :
    Accepts (part n (.expression floor)) e w rest := by
  intro input hinput
  obtain ⟨m, rfl⟩ := Nat.exists_eq_add_one_of_ne_zero (Nat.ne_zero_of_lt hn)
  obtain ⟨c, bound, hahead, -, hgo⟩ :=
    h m floor rest (Nat.le_of_lt_succ hn) hfits ⟨hfits.not_ceiling_lt hstop, helse⟩ input hinput
  exact ⟨c, hgo _ _ (suffixes_stop (by rw [peek_eq hahead]; exact hstop)), hahead⟩

theorem AcceptedAt.accepts_lowest {e : Node} {w rest : List Token} {n : Nat} (h : AcceptedAt .comparison e w)
    (hn : w.length < n) (hend : (firstOf rest).kind ∉ carriers) (helse : (firstOf rest).kind ≠ .elseWord) :
    Accepts (part n (.expression .lowest)) e w rest :=
  h.accepts hn ⟨by decide, by decide⟩ (not_lowest_lt hend) helse

theorem AcceptedAt.accepts_before {e : Node} {close : Token} {w rest : List Token} {n : Nat}
    (h : AcceptedAt .comparison e w) (hn : w.length < n) (hk : close.kind ∈ [.comma, .rparen, .rsquare]) :
    Accepts (part n (.expression .lowest)) e w (close :: rest) := by
  refine h.accepts_lowest hn ?_ ?_ <;> simp only [firstOf, List.head?_cons, Option.getD_some]
  · revert hk
    cases close.kind <;> decide
  · rintro helse
    simp [helse] at hk

theorem AcceptedAt.accepts_closed {e : Node} {close : Token} {w rest : List Token} {n : Nat} {kind : Kind}
    {input : Input} (h : AcceptedAt .comparison e w) (hn : w.length < n) (hclose : close.kind = kind)
    (hk : kind ∈ [.comma, .rparen, .rsquare]) (hinput : input.ahead = w ++ [close] ++ rest) :
    ∃ c, (part n (.expression .lowest) : Attempt Node) input.advance = .ok (e, c) ∧
      c.peek.kind = kind ∧ c.advance.ahead = rest := by
  obtain ⟨c, hc, hahead⟩ := h.accepts_before hn (hclose ▸ hk) input (by simpa using hinput)
  exact ⟨c, hc, by rw [peek_eq hahead]; exact hclose, (advance_eq hahead).2⟩

theorem accepted_lift {level : Level} {e : Node} {w : List Token} (h : AcceptedAt level.next e w) :
    AcceptedAt level e w :=
  fun n floor rest hn hfits hstops => h n floor rest hn hfits.next hstops.next

/-- After a left operand comes the suffix that carries it on, if the floor lets it. -/
theorem Begins.carry_on {n : Nat} {floor : Strength} {left e : Node} {t : Token} {w w' rest : List Token}
    {suffix : Suffix} (hleft : Begins n floor left w (t :: (w' ++ rest)))
    (hsuffix : Suffix.ofKind? t.kind = some suffix) (hfloor : floor < suffix.strength)
    (hextend : AcceptsAhead (extend (part n) left suffix) e w' rest) : Begins n floor e (w ++ t :: w') rest := by
  intro input hinput
  obtain ⟨c, bound, hahead, hbound, hgo⟩ := hleft input (by simpa using hinput)
  obtain ⟨-, hahead₁⟩ := advance_eq hahead
  obtain ⟨c₁, hc₁, hrest⟩ := hextend c.advance hahead₁
  -- One round of the suffixes reads `t` and the rest of `e`; the rounds after it are those of the longer expression.
  obtain ⟨bound, rfl⟩ := Nat.exists_eq_add_one_of_ne_zero (Nat.ne_zero_of_lt hbound)
  refine ⟨c₁, bound, hrest, ?_, fun e' c' h => hgo e' c' (suffixes_succ_eq_ok.mpr (.inr ?_))⟩
  · simp only [List.length_cons, List.length_append] at hbound
    omega
  · exact ⟨suffix, by rw [peek_eq hahead]; exact hsuffix, hfloor, e, c₁, hc₁, h⟩

theorem accepted_binary {level : Level} {op : Operator} {l r : Node} {t : Token} {w w' : List Token}
    (hop : (t.kind, op) ∈ level.operators) (hl : AcceptedAt level l w) (hr : AcceptedAt level.next r w') :
    AcceptedAt level (.infixOp op l r) (w ++ t :: w') := by
  intro n floor rest hn hfits hstops
  simp only [List.length_append, List.length_cons] at hn
  have hsuffix := binary_suffix hop
  have hsame : ¬level.ceiling < Strength.ofKind t.kind := by
    simp only [Strength.ofKind, hsuffix, Option.elim_some]
    exact Nat.lt_irrefl _
  have hleft := hl n floor (t :: (w' ++ rest)) (by omega) hfits ⟨hsame, ne_else_of_suffix hsuffix⟩
  refine hleft.carry_on hsuffix (hfits.lt_ceiling hop) fun c hahead => ?_
  obtain ⟨c', hc', hrest⟩ := hr.accepts (n := n) (by omega) (Level.next_fits_ceiling hop) hstops.ceiling
    hstops.ne_else c.toInput hahead
  exact ⟨c', extend_binary_eq_ok.mpr ⟨r, hc', rfl⟩, hrest⟩

theorem accepted_step {op : Operator} {e : Node} {t : Token} {w : List Token} (hop : (t.kind, op) ∈ steps)
    (he : AcceptedAt .chain e w) : AcceptedAt .chain (.postfixOp op e) (w ++ [t]) := by
  intro n floor rest hn hfits _
  simp only [List.length_append, List.length_singleton] at hn
  have hsuffix := step_suffix hop
  have hleft := he n floor (t :: ([] ++ rest)) (by omega) hfits (chain_stops (ne_else_of_suffix hsuffix))
  exact hleft.carry_on hsuffix (hfits.lt_of_leading_lt (s := .postfixed) (by decide))
    fun c hahead => ⟨c, extend_closing_eq_ok.mpr ⟨rfl, rfl⟩, hahead⟩

theorem accepted_call {f : Node} {args : List Node} {o c : Token} {w w' : List Token} (hcallable : f.isCallable)
    (ho : o.kind = .lparen) (he : AcceptedAt .chain f w)
    (hargs : ∀ (n : Nat) (rest : List Token), w'.length < n →
      AcceptsAhead (items .rparen (part n (.expression .lowest))) args (w' ++ [c]) rest) :
    AcceptedAt .chain (.call f args) (w ++ o :: (w' ++ [c])) := by
  intro n floor rest hn hfits _
  simp only [List.length_append, List.length_cons, List.length_nil] at hn
  have hsuffix : Suffix.ofKind? o.kind = some .call := by rw [ho]; rfl
  have hleft := he n floor (o :: (w' ++ [c] ++ rest)) (by omega) hfits (chain_stops (ne_else_of_suffix hsuffix))
  refine hleft.carry_on hsuffix (hfits.lt_of_leading_lt (s := .call) (by decide)) fun c₀ hahead => ?_
  obtain ⟨c₁, hc₁, hrest⟩ := hargs n rest (by omega) c₀ hahead
  exact ⟨c₁, extend_call_eq_ok.mpr ⟨hcallable, args, hc₁, rfl⟩, hrest⟩

theorem accepted_index {e i : Node} {o c : Token} {w w' : List Token} (hindexable : e.isIndexable)
    (ho : o.kind = .lsquare) (hc : c.kind = .rsquare) (he : AcceptedAt .chain e w)
    (hi : AcceptedAt .comparison i w') : AcceptedAt .chain (.index e i) (w ++ o :: (w' ++ [c])) := by
  intro n floor rest hn hfits _
  simp only [List.length_append, List.length_cons, List.length_nil] at hn
  have hsuffix : Suffix.ofKind? o.kind = some .index := by rw [ho]; rfl
  have hleft := he n floor (o :: (w' ++ [c] ++ rest)) (by omega) hfits (chain_stops (ne_else_of_suffix hsuffix))
  refine hleft.carry_on hsuffix (hfits.lt_of_leading_lt (s := .index) (by decide)) fun c₀ hahead => ?_
  obtain ⟨c₁, hc₁, hk, hahead₁⟩ := hi.accepts_closed (n := n) (by omega) hc (by decide) hahead
  exact ⟨c₁.advance, extend_index_eq_ok.mpr ⟨hindexable, i, c₁, hc₁, ⟨hk, rfl⟩, rfl⟩, hahead₁⟩

theorem begins_of_primary {n : Nat} {floor : Strength} {e : Node} {w rest : List Token}
    (h : Accepts (primary (part n)) e w rest) : Begins n floor e w rest := by
  intro input hinput
  obtain ⟨c, hprimary, hahead⟩ := h input hinput
  exact ⟨c, rest.length, hahead, Nat.le_refl _, fun e' c' hrest =>
    expression_eq_ok.mpr ⟨e, c, hprimary, by rw [hahead]; exact hrest⟩⟩

theorem accepted_sign {op : Operator} {e : Node} {t : Token} {w : List Token} (hop : (t.kind, op) ∈ signs)
    (he : AcceptedAt .signed e w) : AcceptedAt .signed (.prefixOp op e) (t :: w) := by
  intro n floor rest hn _ hstops
  apply begins_of_primary
  intro input hinput
  obtain ⟨hcurrent, hahead⟩ := advance_eq hinput
  obtain ⟨c, hc, hrest⟩ := he.accepts (n := n) hn ⟨by decide, by decide⟩ hstops.ceiling hstops.ne_else
    input.advance.toInput hahead
  refine ⟨c, ?_, hrest⟩
  simp only [signs, List.mem_cons, Prod.mk.injEq, List.not_mem_nil, or_false, ← hcurrent] at hop
  rcases hop with ⟨hk, rfl⟩ | ⟨hk, rfl⟩
  · simpa only [primary_eq, hk] using prefixed_eq_ok.mpr ⟨e, hc, rfl⟩
  · simpa only [primary_eq, hk] using prefixed_eq_ok.mpr ⟨e, hc, rfl⟩

theorem accepted_primary {e : Node} {t : Token} {w : List Token}
    (h : ∀ (n : Nat) (rest : List Token) (c : Cursor), w.length < n → (firstOf rest).kind ≠ .elseWord →
      c.current = t → c.ahead = w ++ rest → ∃ c', (primary (part n) : Attempt Node) c = .ok (e, c') ∧ c'.ahead = rest) :
    AcceptedAt .primary e (t :: w) := by
  intro n floor rest hn _ hstops
  apply begins_of_primary
  intro input hinput
  obtain ⟨hcurrent, hahead⟩ := advance_eq hinput
  exact h n rest input.advance hn hstops.ne_else hcurrent hahead

theorem accepted_word {e : Node} {t : Token}
    (h : ∀ (inner : Part → Attempt Node) (c : Cursor), c.current = t → primary inner c = .ok (e, c)) :
    AcceptedAt .primary e [t] :=
  accepted_primary fun n _ c _ _ hcurrent hahead => ⟨c, h (part n) c hcurrent, hahead⟩

theorem accepted_group {e : Node} {o c : Token} {w : List Token} (ho : o.kind = .lparen)
    (hc : c.kind = .rparen) (he : AcceptedAt .comparison e w) : AcceptedAt .primary e (o :: (w ++ [c])) := by
  apply accepted_primary
  intro n rest c₀ hn _ hcurrent hahead
  simp only [List.length_append, List.length_singleton] at hn
  obtain ⟨c₁, hc₁, hk, hahead₁⟩ := he.accepts_closed (n := n) (by omega) hc (by decide) hahead
  refine ⟨c₁.advance, ?_, hahead₁⟩
  simp only [primary_eq, hcurrent, ho]
  exact grouped_eq_ok.mpr ⟨c₁, hc₁, hk, rfl⟩

def AcceptedBlock (b : Node) (w : List Token) : Prop :=
  ∀ (n : Nat) (rest : List Token), w.length < n → Accepts (part n .block) b w rest

def AcceptedCondition (e : Node) (w : List Token) : Prop :=
  ∀ (n : Nat) (rest : List Token), w.length ≤ n → AcceptsAhead (condition (part n)) e w rest

theorem accepted_condition {e : Node} {o c : Token} {w : List Token} (ho : o.kind = .lparen)
    (hc : c.kind = .rparen) (he : AcceptedAt .comparison e w) : AcceptedCondition e (o :: (w ++ [c])) := by
  intro n rest hn c₀ hahead
  simp only [List.length_cons, List.length_append, List.length_nil] at hn
  obtain ⟨-, hahead₁⟩ := advance_eq hahead
  obtain ⟨c₁, hc₁, hk, hahead₂⟩ := he.accepts_closed (n := n) (by omega) hc (by decide) hahead₁
  refine ⟨c₁.advance, condition_eq_ok.mpr ⟨?_, c₁, hc₁, hk, rfl⟩, hahead₂⟩
  rw [peek_eq hahead]
  exact ho

theorem accepted_ifThen {test yes : Node} {t : Token} {w w' : List Token} (ht : t.kind = .ifWord)
    (htest : AcceptedCondition test w) (hyes : AcceptedBlock yes w') :
    AcceptedAt .primary (.ifThen test yes) (t :: (w ++ w')) := by
  apply accepted_primary
  intro n rest c hn helse hcurrent hahead
  simp only [List.length_append] at hn
  obtain ⟨c₁, hc₁, hahead₁⟩ := htest n (w' ++ rest) (by omega) c (by simpa using hahead)
  obtain ⟨c₂, hc₂, hahead₂⟩ := hyes n rest (by omega) c₁.toInput hahead₁
  refine ⟨c₂, ?_, hahead₂⟩
  simp only [primary_eq, hcurrent, ht]
  refine conditional_eq_ok.mpr ⟨test, c₁, hc₁, yes, c₂, hc₂, .inr ⟨?_, rfl, rfl⟩⟩
  rw [peek_eq hahead₂]
  exact helse

theorem accepted_ifElse {test yes no : Node} {t u : Token} {w w' w'' : List Token} (ht : t.kind = .ifWord)
    (hu : u.kind = .elseWord) (htest : AcceptedCondition test w) (hyes : AcceptedBlock yes w')
    (hno : AcceptedBlock no w'') : AcceptedAt .primary (.ifElse test yes no) (t :: (w ++ (w' ++ u :: w''))) := by
  apply accepted_primary
  intro n rest c hn _ hcurrent hahead
  simp only [List.length_append, List.length_cons] at hn
  obtain ⟨c₁, hc₁, hahead₁⟩ := htest n (w' ++ u :: (w'' ++ rest)) (by omega) c (by simpa using hahead)
  obtain ⟨c₂, hc₂, hahead₂⟩ := hyes n (u :: (w'' ++ rest)) (by omega) c₁.toInput hahead₁
  obtain ⟨c₃, hc₃, hahead₃⟩ := hno n rest (by omega) c₂.advance.toInput (advance_eq hahead₂).2
  refine ⟨c₃, ?_, hahead₃⟩
  simp only [primary_eq, hcurrent, ht]
  refine conditional_eq_ok.mpr ⟨test, c₁, hc₁, yes, c₂, hc₂, .inl ⟨?_, no, hc₃, rfl⟩⟩
  rw [peek_eq hahead₂]
  exact hu

theorem accepted_fn {params : List String} {b : Node} {t o c : Token} {w w' : List Token} (ht : t.kind = .fnWord)
    (ho : o.kind = .lparen)
    (hparams : ∀ rest : List Token, AcceptsAhead (items .rparen name) params (w ++ [c]) rest)
    (hb : AcceptedBlock b w') : AcceptedAt .primary (.fn params b) (t :: o :: (w ++ c :: w')) := by
  apply accepted_primary
  intro n rest c₀ hn _ hcurrent hahead
  simp only [List.length_append, List.length_cons] at hn
  obtain ⟨-, hahead₁⟩ := advance_eq hahead
  obtain ⟨c₁, hc₁, hahead₂⟩ := hparams (w' ++ rest) c₀.advance (by simpa using hahead₁)
  obtain ⟨c₂, hc₂, hahead₃⟩ := hb n rest (by omega) c₁.toInput hahead₂
  refine ⟨c₂, ?_, hahead₃⟩
  simp only [primary_eq, hcurrent, ht]
  refine function_eq_ok.mpr ⟨?_, params, c₁, hc₁, b, hc₂, rfl⟩
  rw [peek_eq hahead]
  exact ho

theorem accepted_array {es : List Node} {o c : Token} {w : List Token} (ho : o.kind = .lsquare)
    (hes : ∀ (n : Nat) (rest : List Token), w.length < n →
      AcceptsAhead (items .rsquare (part n (.expression .lowest))) es (w ++ [c]) rest) :
    AcceptedAt .primary (.array es) (o :: (w ++ [c])) := by
  apply accepted_primary
  intro n rest c₀ hn _ hcurrent hahead
  simp only [List.length_append, List.length_singleton] at hn
  obtain ⟨c₁, hc₁, hahead₁⟩ := hes n rest (by omega) c₀ hahead
  refine ⟨c₁, ?_, hahead₁⟩
  simp only [primary_eq, hcurrent, ho]
  exact array_eq_ok.mpr ⟨es, hc₁, rfl⟩

end Grammar
end Scriptlet
