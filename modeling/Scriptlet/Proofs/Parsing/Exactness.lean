import Scriptlet.Proofs.Parsing.Completeness
import Scriptlet.Proofs.Parsing.Running

/-! The parser accepts exactly the programs of the grammar.  Items and statements are read one after the other, and
each of them ends where the next one starts. -/
namespace Scriptlet
namespace Grammar
open Scriptlet.Parser Attempt

inductive Separated (P : Phrase → List Token → Prop) : List Phrase → List Token → Prop
  | nil : Separated P [] []
  | last {p w} (hp : P p w) : Separated P [p] w
  | cons {p q ps t w w'} (ht : t.kind = .comma) (hp : P p w) (hps : Separated P (q :: ps) w') :
      Separated P (p :: q :: ps) (w ++ t :: w')

/-- A statement is read up to a token that neither carries it on nor adds a second branch. -/
def AcceptedStatement (s : Node) (w : List Token) : Prop :=
  ∀ (n : Nat) (rest : List Token), w.length ≤ n → (firstOf rest).kind ≠ .elseWord →
    (endsOpen s → (firstOf rest).kind ∉ carriers) → Accepts (statement (part n)) s w rest

/-- Statements after one another, each of which the next one ends. -/
inductive Sequenced : List Node → List Token → Prop
  | nil : Sequenced [] []
  | cons {s ss w w'} (hs : AcceptedStatement s w) (hne : w ≠ []) (hss : Sequenced ss w')
      (helse : ∀ t ∈ w'.head?, t.kind ≠ .elseWord) (hend : endsOpen s → ∀ t ∈ w'.head?, t.kind ∉ carriers) :
      Sequenced (s :: ss) (w ++ w')

def AcceptedItem : Phrase → List Token → Prop
  | .expression level e, w => AcceptedAt level e w
  | .name x, w => ∃ t, w = [t] ∧ t.kind = .identifier ∧ t.lexeme = x
  | .condition e, w => AcceptedCondition e w
  | .block b, w => AcceptedBlock b w
  | .statement s, w => AcceptedStatement s w
  | .statements ss, w => Sequenced ss w
  | .items _, _ | .program _, _ => True

def Accepted : Phrase → List Token → Prop
  | .items ps, w => Separated AcceptedItem ps w
  | p, w => AcceptedItem p w

theorem Accepted.item {p : Phrase} {w : List Token} (h : Accepted p w) : AcceptedItem p w := by
  cases p with
  | items ps => trivial
  | _ => exact h

section
variable {α : Type} {item : Attempt α} {f : α → Phrase} {n : Nat}
  (hitem : ∀ {a : α} {close : Token} {w rest : List Token}, AcceptedItem (f a) w → w.length < n →
    close.kind ∈ [.comma, .rparen, .rsquare] → Accepts item a w (close :: rest))
include hitem

theorem moreItems_accepts {as : List α} {a : α} {close : Token} {w rest : List Token} {input : Input}
    (h : Separated AcceptedItem (f a :: as.map f) w) (hn : w.length < n) (hclose : close.kind ∈ [.rparen, .rsquare])
    (hinput : input.ahead = w ++ close :: rest) :
    ∃ c, item input.advance = .ok (a, c) ∧ c.ahead.length ≤ input.ahead.length ∧
      ∀ bound, c.ahead.length ≤ bound → ∃ c', moreItems item bound c = .ok (as, c') ∧ c'.ahead = close :: rest := by
  have hcomma : close.kind ≠ .comma := by
    intro hk
    simp [hk] at hclose
  have hmem : close.kind ∈ [.comma, .rparen, .rsquare] := List.mem_cons_of_mem _ hclose
  induction as generalizing a w input with
  | nil =>
    cases h with
    | last hp =>
      obtain ⟨c, hc, hahead⟩ := hitem hp hn hmem input hinput
      refine ⟨c, hc, by simp [hahead, hinput], fun bound hbound => ⟨c, ?_, hahead⟩⟩
      cases bound with
      | zero => exact moreItems_zero_eq_ok.mpr ⟨rfl, rfl⟩
      | succ bound => exact moreItems_succ_eq_ok.mpr (.inr ⟨by rw [peek_eq hahead]; exact hcomma, rfl, rfl⟩)
  | cons a' as ih =>
    cases h with
    | @cons _ _ _ t w w' ht hp hps =>
      -- The comma ends the item before it, and the others start right after the comma.
      simp only [List.length_append, List.length_cons] at hn
      have hinput' : input.ahead = w ++ t :: (w' ++ close :: rest) := by simpa using hinput
      obtain ⟨c, hc, hahead⟩ := hitem hp (by omega) (by simp [ht]) input hinput'
      obtain ⟨-, hahead₁⟩ := advance_eq hahead
      obtain ⟨c₁, hc₁, hle, hothers⟩ := ih hps (by omega) hahead₁
      refine ⟨c, hc, by simp [hahead, hinput'], fun bound hbound => ?_⟩
      simp only [hahead₁, hahead, List.length_cons] at hle hbound
      obtain ⟨bound, rfl⟩ := Nat.exists_eq_add_one_of_ne_zero (Nat.ne_zero_of_lt hbound)
      obtain ⟨c₂, hc₂, hahead₂⟩ := hothers bound (Nat.le_trans hle (Nat.le_of_succ_le_succ hbound))
      refine ⟨c₂, moreItems_succ_eq_ok.mpr (.inl ⟨?_, a', c₁, hc₁, as, hc₂, rfl⟩), hahead₂⟩
      rw [peek_eq hahead]
      exact ht

theorem items_accepts {as : List α} {close : Token} {w rest : List Token} {kind : Kind}
    (hstart : ∀ {c c' : Cursor} {a : α}, item c = .ok (a, c') → c.current.kind ≠ kind)
    (h : Separated AcceptedItem (as.map f) w) (hn : w.length < n) (hclose : close.kind = kind)
    (hk : kind ∈ [.rparen, .rsquare]) : AcceptsAhead (items kind item) as (w ++ [close]) rest := by
  intro c hahead
  cases as with
  | nil =>
    cases h with
    | nil =>
      refine ⟨c.advance, items_eq_ok.mpr (.inl ⟨?_, rfl, rfl⟩), (advance_eq hahead).2⟩
      rw [peek_eq hahead]
      exact hclose
  | cons a as =>
    obtain ⟨c₁, hc₁, -, hothers⟩ := moreItems_accepts hitem h hn (hclose ▸ hk) (by simpa using hahead)
    obtain ⟨c₂, hc₂, hahead₂⟩ := hothers c₁.ahead.length (Nat.le_refl _)
    refine ⟨c₂.advance, ?_, (advance_eq hahead₂).2⟩
    refine items_eq_ok.mpr (.inr ⟨hstart hc₁, a, c₁, hc₁, as, c₂, hc₂, ?_, rfl, rfl⟩)
    rw [peek_eq hahead₂]
    exact hclose

end

theorem part_expression_kind {n : Nat} {floor : Strength} {c c' : Cursor} {e : Node}
    (h : (part n (.expression floor) : Attempt Node) c = .ok (e, c')) :
    c.current.kind ∉ [.rparen, .rsquare, .rbrace, .eof] := by
  cases n with
  | zero => exact (exhaust_eq_ok.mp h).elim
  | succ n => exact expression_kind h

theorem expressions_accept {es : List Node} {close : Token} {w : List Token} {kind : Kind}
    (h : Separated AcceptedItem (es.map (.expression .comparison)) w) (hclose : close.kind = kind)
    (hk : kind ∈ [.rparen, .rsquare]) (n : Nat) (rest : List Token) (hn : w.length < n) :
    AcceptsAhead (items kind (part n (.expression .lowest))) es (w ++ [close]) rest := by
  refine items_accepts (f := .expression .comparison) AcceptedAt.accepts_before ?_ h hn hclose hk
  intro c c' e he hcurrent
  have hkind := part_expression_kind he
  rw [hcurrent] at hkind
  exact hkind (List.mem_append_left _ hk)

theorem names_accept {params : List String} {close : Token} {w : List Token}
    (h : Separated AcceptedItem (params.map .name) w) (hclose : close.kind = .rparen) (rest : List Token) :
    AcceptsAhead (items .rparen name) params (w ++ [close]) rest := by
  refine items_accepts (n := w.length + 1) ?_ ?_ h (Nat.lt_succ_self _) hclose (by decide)
  · rintro x close w rest ⟨t, rfl, hk, hx⟩ - - input hinput
    obtain ⟨hcurrent, hahead⟩ := advance_eq hinput
    exact ⟨input.advance, name_eq_ok.mpr ⟨by rw [hcurrent, hk], by rw [hcurrent, hx], rfl⟩, hahead⟩
  · intro c c' x hx
    simp [(name_eq_ok.mp hx).1]

theorem accepted_letStmt {x : String} {e : Node} {t u a : Token} {w : List Token} (ht : t.kind = .letWord)
    (hu : u.kind = .identifier) (hx : u.lexeme = x) (ha : a.kind = .assign) (he : AcceptedAt .comparison e w) :
    AcceptedStatement (.letStmt x e) (t :: u :: a :: w) := by
  intro n rest hn helse hend input hinput
  simp only [List.length_cons] at hn
  obtain ⟨hcurrent, hahead⟩ := advance_eq hinput
  obtain ⟨-, hahead₁⟩ := advance_eq hahead
  obtain ⟨-, hahead₂⟩ := advance_eq hahead₁
  obtain ⟨c, hc, hrest⟩ := he.accepts_lowest (n := n) (by omega) (hend rfl) helse
    input.advance.advance.advance.toInput hahead₂
  refine ⟨c, statement_eq_ok.mpr (.inl ⟨by rw [hcurrent, ht], ?_⟩), hrest⟩
  refine letStatement_eq_ok.mpr ⟨?_, ?_, e, hc, ?_⟩
  · rw [peek_eq hahead]
    exact hu
  · rw [peek_eq hahead₁]
    exact ha
  · rw [peek_eq hahead]
    exact congrArg (Node.letStmt · e) hx

theorem accepted_returnStmt {e : Node} {t : Token} {w : List Token} (ht : t.kind = .returnWord)
    (he : AcceptedAt .comparison e w) : AcceptedStatement (.returnStmt e) (t :: w) := by
  intro n rest hn helse hend input hinput
  obtain ⟨hcurrent, hahead⟩ := advance_eq hinput
  obtain ⟨c, hc, hrest⟩ := he.accepts_lowest (n := n) hn (hend rfl) helse input.advance.toInput hahead
  refine ⟨c, statement_eq_ok.mpr (.inr (.inl ⟨by rw [hcurrent, ht], ?_⟩)), hrest⟩
  exact returnStatement_eq_ok.mpr ⟨e, hc, rfl⟩

theorem accepted_whileStmt {test body : Node} {t : Token} {w w' : List Token} (ht : t.kind = .whileWord)
    (htest : AcceptedCondition test w) (hbody : AcceptedBlock body w') :
    AcceptedStatement (.whileStmt test body) (t :: (w ++ w')) := by
  intro n rest hn _ _ input hinput
  simp only [List.length_cons, List.length_append] at hn
  obtain ⟨hcurrent, hahead⟩ := advance_eq hinput
  obtain ⟨c₁, hc₁, hahead₁⟩ := htest n (w' ++ rest) (by omega) input.advance (by simpa using hahead)
  obtain ⟨c₂, hc₂, hahead₂⟩ := hbody n rest (by omega) c₁.toInput hahead₁
  refine ⟨c₂, statement_eq_ok.mpr (.inr (.inr (.inl ⟨by rw [hcurrent, ht], ?_⟩))), hahead₂⟩
  exact whileStatement_eq_ok.mpr ⟨test, c₁, hc₁, body, hc₂, rfl⟩

/-- No expression starts with the first word of another statement. -/
theorem expression_kind_ne_statement {inner : Part → Attempt Node} {floor : Strength} {c c' : Cursor} {e : Node}
    (h : expression inner floor c = .ok (e, c')) : c.current.kind ∉ [.letWord, .returnWord, .whileWord] := by
  obtain ⟨_, _, hfirst, -⟩ := expression_eq_ok.mp h
  intro hk
  simp only [List.mem_cons, List.not_mem_nil, or_false] at hk
  rcases hk with hk | hk | hk <;> simp [primary_eq, hk] at hfirst

theorem accepted_exprStmt {e : Node} {w : List Token} (he : AcceptedAt .comparison e w) :
    AcceptedStatement (.exprStmt e) w := by
  intro n rest hn helse hend input hinput
  have hfits : Level.comparison.Fits .lowest := ⟨by decide, by decide⟩
  have hstop := not_lowest_lt (hend rfl)
  obtain ⟨c, bound, hahead, -, hgo⟩ := he n .lowest rest hn hfits ⟨hfits.not_ceiling_lt hstop, helse⟩ input hinput
  have hc := hgo e c (suffixes_stop (by rw [peek_eq hahead]; exact hstop))
  refine ⟨c, statement_eq_ok.mpr (.inr (.inr (.inr ⟨expression_kind_ne_statement hc, e, hc, rfl⟩))), hahead⟩

/-- The first of some statements is read up to the others, whatever comes after them all. -/
theorem Sequenced.first_accepts {s : Node} {w w' rest : List Token} {n : Nat} (hs : AcceptedStatement s w)
    (hn : w.length ≤ n) (helse : ∀ t ∈ w'.head?, t.kind ≠ .elseWord)
    (hend : endsOpen s → ∀ t ∈ w'.head?, t.kind ∉ carriers) (hrest : (firstOf rest).kind ∉ .elseWord :: carriers) :
    Accepts (statement (part n)) s w (w' ++ rest) := by
  obtain ⟨hrest_else, hrest_end⟩ := List.ne_and_not_mem_of_not_mem_cons hrest
  refine hs n (w' ++ rest) hn (firstOf_append (P := fun t => t.kind ≠ .elseWord) helse hrest_else) fun hopen => ?_
  exact firstOf_append (P := fun t => t.kind ∉ carriers) (hend hopen) hrest_end

theorem Sequenced.accepts {ss : List Node} {close : Token} {w rest : List Token} {n bound : Nat} {input : Input}
    (h : Sequenced ss w) (hn : w.length ≤ n) (hbound : w.length < bound) (hclose : close.kind = .rbrace)
    (hinput : input.ahead = w ++ close :: rest) :
    ∃ c, (Parser.statements (part n) bound : Attempt (List Node)) input.advance = .ok (ss, c) ∧
      c.current = close ∧ c.ahead = rest := by
  induction h generalizing bound input with
  | nil =>
    obtain ⟨bound, rfl⟩ := Nat.exists_eq_add_one_of_ne_zero (Nat.ne_zero_of_lt hbound)
    obtain ⟨hcurrent, hahead⟩ := advance_eq hinput
    refine ⟨input.advance, statements_succ_eq_ok.mpr (.inl ⟨.inl ?_, rfl, rfl⟩), hcurrent, hahead⟩
    rw [hcurrent, hclose]
  | @cons s ss w w' hs hne hss helse hend ih =>
    have hpos : 0 < w.length := List.length_pos_iff.mpr hne
    simp only [List.length_append] at hn hbound
    -- The last statement may end openly, since no brace carries it on.
    have hrest : (firstOf (close :: rest)).kind ∉ .elseWord :: carriers := by
      show close.kind ∉ _
      rw [hclose]
      decide
    obtain ⟨c, hc, hahead⟩ := Sequenced.first_accepts (n := n) hs (by omega) helse hend hrest input
      (by simpa using hinput)
    obtain ⟨bound, rfl⟩ := Nat.exists_eq_add_one_of_ne_zero (Nat.ne_zero_of_lt hbound)
    have hbound' : w'.length < bound := by omega
    obtain ⟨c', hc', hcurrent, hahead'⟩ := ih (by omega) hbound' hahead
    refine ⟨c', statements_succ_eq_ok.mpr (.inr ⟨?_, s, c, hc, ss, hc', rfl⟩), hcurrent, hahead'⟩
    have hkind := statement_kind hc
    simp_all

theorem accepted_block {ss : List Node} {o c : Token} {w : List Token} (ho : o.kind = .lbrace) (hc : c.kind = .rbrace)
    (hss : Sequenced ss w) : AcceptedBlock (.block ss) (o :: (w ++ [c])) := by
  intro n rest hn input hinput
  obtain ⟨n, rfl⟩ := Nat.exists_eq_add_one_of_ne_zero (Nat.ne_zero_of_lt hn)
  simp only [List.length_cons, List.length_append, List.length_nil] at hn
  obtain ⟨hcurrent, hahead⟩ := advance_eq hinput
  have hahead' : input.advance.ahead = w ++ c :: rest := by simpa using hahead
  have hbound : w.length < input.advance.advance.ahead.length + 1 := by
    simp only [Input.advance, hinput, List.tail_cons, List.cons_append, List.length_tail, List.length_append,
      List.length_singleton]
    omega
  obtain ⟨c', hc', hcurrent', hrest⟩ := hss.accepts (n := n) (by omega) hbound hc hahead'
  exact ⟨c', block_eq_ok.mpr ⟨by rw [hcurrent, ho], ss, hc', by rw [hcurrent', hc], rfl⟩, hrest⟩

theorem Sequenced.program_accepts {ss : List Node} {w : List Token} {n bound : Nat} {input : Input}
    (h : Sequenced ss w) (hn : w.length ≤ n) (hbound : w.length ≤ bound) (hinput : input.ahead = w) :
    ∃ rest, Attempt.untilEnd (part n) bound input = .ok (ss, rest) := by
  induction h generalizing bound input with
  | nil =>
    cases bound with
    | zero => exact ⟨input, rfl⟩
    | succ bound => exact ⟨input, Attempt.untilEnd_succ_eq_ok.mpr (.inl ⟨by rw [peek_eq hinput]; rfl, rfl, rfl⟩)⟩
  | @cons s ss w w' hs hne hss helse hend ih =>
    have hpos : 0 < w.length := List.length_pos_iff.mpr hne
    simp only [List.length_append] at hn hbound
    have hlast : (firstOf []).kind ∉ .elseWord :: carriers := by decide
    obtain ⟨c, hc, hahead⟩ := Sequenced.first_accepts (n := n) hs (by omega) helse hend hlast input
      (by simpa using hinput)
    obtain ⟨bound, rfl⟩ := Nat.exists_eq_add_one_of_ne_zero (n := bound) (by omega)
    have hbound' : w'.length ≤ bound := by omega
    obtain ⟨rest, hothers⟩ := ih (by omega) hbound' (hahead.trans (List.append_nil w'))
    refine ⟨rest, Attempt.untilEnd_succ_eq_ok.mpr (.inr ⟨?_, s, c, hc, ss, hothers, rfl⟩)⟩
    intro heof
    have hkind := statement_kind hc
    rw [show input.advance.current = .eof from heof] at hkind
    exact hkind (by decide)

theorem Yields.accepted {p : Phrase} {w : List Token} (h : Yields p w) : Accepted p w := by
  induction h with
  | lift _ ih => exact accepted_lift ih
  | binary hop _ _ ihl ihr => exact accepted_binary hop ihl ihr
  | sign hop _ ih => exact accepted_sign hop ih
  | step hop _ ih => exact accepted_step hop ih
  | call hf ho hc _ _ ih ihargs => exact accepted_call hf ho ih (expressions_accept ihargs hc (by decide))
  | index he' ho hc _ _ ih ihi => exact accepted_index he' ho hc ih ihi
  | int ht hn =>
    refine accepted_word fun inner c hcurrent => ?_
    have hinteger := integer?_eq_some.mpr ⟨_, hn, rfl⟩
    simp [primary_eq, hcurrent, ht, hinteger]
  | str ht | ident ht | trueWord ht | falseWord ht =>
    refine accepted_word fun inner c hcurrent => ?_
    simp [primary_eq, hcurrent, ht]
  | group ho hc _ ih => exact accepted_group ho hc ih
  | ifThen ht _ _ ihc ihy => exact accepted_ifThen ht ihc ihy
  | ifElse ht hu _ _ _ ihc ihy ihn => exact accepted_ifElse ht hu ihc ihy ihn
  | fn ht ho hc _ _ ihparams ihb => exact accepted_fn ht ho (names_accept ihparams hc) ihb
  | array ho hc _ ih => exact accepted_array ho (expressions_accept ih hc (by decide))
  | name ht => exact ⟨_, rfl, ht, rfl⟩
  | noItems => exact .nil
  | lastItem _ ih => exact .last ih.item
  | moreItems ht _ _ ih ihps => exact .cons ht ih.item ihps
  | condition ho hc _ ih => exact accepted_condition ho hc ih
  | block ho hc _ ih => exact accepted_block ho hc ih
  | letStmt ht hn hx ha _ ih => exact accepted_letStmt ht hn hx ha ih
  | returnStmt ht _ ih => exact accepted_returnStmt ht ih
  | whileStmt ht _ _ ihc ihb => exact accepted_whileStmt ht ihc ihb
  | exprStmt _ ih => exact accepted_exprStmt ih
  | noStatements => exact .nil
  | moreStatements hs hss hend ih ihss => exact .cons ih (hs.ne_nil rfl) ihss hss.head_ne_else hend
  | program _ _ => trivial

end Grammar

namespace Token

theorem ofWord_ne_eof (word : String) : Kind.ofWord word ≠ .eof := by
  have hkeywords : ∀ entry ∈ Kind.keywords, entry.2 ≠ .eof := by decide
  unfold Kind.ofWord
  cases hlookup : Kind.keywords.lookup word with
  | none => decide
  | some kind =>
    obtain ⟨before, after, heq, -⟩ := List.lookup_eq_some_iff.mp hlookup
    exact hkeywords (word, kind) (by simp [heq])

theorem ofSymbol?_ne_eof {c : Char} {kind : Kind} (h : Kind.ofSymbol? c = some kind) : kind ≠ .eof := by
  rintro rfl
  unfold Kind.ofSymbol? at h
  split at h <;> simp at h

theorem extension?_ne_eof {c : Char} {e : Kind.Extension} (h : Kind.extension? c = some e) :
    e.alone ≠ .eof ∧ e.both ≠ .eof := by
  unfold Kind.extension? at h
  split at h <;> simp at h <;> subst h <;> decide

theorem takeFrom_kind_ne_eof (c : Char) (rest : List Char) : (takeFrom c rest).1.kind ≠ .eof := by
  unfold takeFrom
  split
  · next hsymbol => exact ofSymbol?_ne_eof hsymbol
  · split
    · next hextension =>
      obtain ⟨halone, hboth⟩ := extension?_ne_eof hextension
      unfold takeExtensible
      split
      · exact halone
      · split
        · exact hboth
        · exact halone
    · split
      · unfold takeString
        split <;> simp
      · split
        · simp
        · split
          · exact ofWord_ne_eof _
          · simp

theorem steps_of_first?_eq_none {cs : List Char} (h : first? cs = none) : steps cs = [] := by
  rw [steps]
  split
  · rfl
  · next hsome => simp [h] at hsome

theorem steps_of_first?_eq_some {cs rest : List Char} {t : Token} (h : first? cs = some (t, rest)) :
    steps cs = (t, rest) :: steps rest := by
  rw [steps]
  split
  · next hnone => simp [h] at hnone
  · next hsome =>
    obtain ⟨rfl, rfl⟩ := Prod.mk.inj (Option.some.inj (h.symm.trans hsome))
    rfl

theorem tokens_of_first?_eq_none {cs : List Char} (h : first? cs = none) : tokens cs = [] := by
  rw [tokens, steps_of_first?_eq_none h, List.map_nil]

theorem tokens_of_first?_eq_some {cs rest : List Char} {t : Token} (h : first? cs = some (t, rest)) :
    tokens cs = t :: tokens rest := by
  rw [tokens, steps_of_first?_eq_some h, List.map_cons, tokens]

theorem kind_ne_eof_of_mem_tokens {cs : List Char} {t : Token} (h : t ∈ tokens cs) : t.kind ≠ .eof := by
  induction cs using steps.induct with
  | case1 cs hnone => simp [tokens_of_first?_eq_none hnone] at h
  | case2 cs first rest hsome ih =>
    rw [tokens_of_first?_eq_some hsome] at h
    rcases List.mem_cons.mp h with rfl | h
    · unfold first? at hsome
      split at hsome
      · cases hsome
      · next c cs' _ =>
        have hfirst := takeFrom_kind_ne_eof c cs'
        rwa [Option.some.inj hsome] at hfirst
    · exact ih h

end Token

namespace Grammar

theorem ofTokens_eq_ok_iff_yields {tokens : List Token} (heof : ∀ t ∈ tokens, t.kind ≠ .eof) (p : Node) :
    Program.ofTokens tokens = .ok p ↔ Yields (.program p) tokens := by
  have hahead : (Input.ofTokens tokens).ahead = tokens := rfl
  rw [Program.ofTokens_eq_ok]
  constructor
  · rintro ⟨ss, rest, hread, rfl⟩
    exact .program (program_statements_yields (part_reads _) (Nat.le_of_eq (congrArg _ hahead)) heof hread)
  · intro h
    cases h with
    | program hss =>
      have hsequenced : Sequenced _ tokens := hss.accepted
      obtain ⟨rest, hread⟩ := hsequenced.program_accepts (Nat.le_succ _) (Nat.le_refl _) hahead
      exact ⟨_, rest, hread, rfl⟩

/-- A text parses to a program exactly if the grammar writes that program with the tokens of the text. -/
theorem parse_eq_ok_iff_yields (source : String) (p : Node) :
    Program.parse source = .ok p ↔ Yields (.program p) (Token.ofSource source.toList) :=
  ofTokens_eq_ok_iff_yields (fun _ ht => Token.kind_ne_eof_of_mem_tokens ht) p

end Grammar
end Scriptlet
