import Scriptlet.Proofs.Parsing.Exactness
import Scriptlet.Proofs.Syntax.Formed

/-! The trees of program texts are well-formed: the grammar puts each construct into its place, and names, strings and
integers come from tokens that are spelled as such. -/
namespace Scriptlet
namespace Grammar
open Token

mutual

def Phrase.Formed : Phrase → Prop
  | expression _ e | condition e => Node.Formed .expression e
  | name x => IsName x
  | items ps => AllFormed ps
  | block b => Node.Formed .block b
  | statement s => Node.Formed .statement s
  | statements ss => ∀ s ∈ ss, Node.Formed .statement s
  | program p => Node.Formed .program p

def Phrase.AllFormed : List Phrase → Prop
  | [] => True
  | p :: ps => Formed p ∧ AllFormed ps

end

@[simp] theorem Phrase.allFormed_expressions {level : Level} {es : List Node} :
    AllFormed (es.map (expression level)) ↔ ∀ e ∈ es, Node.Formed .expression e := by
  induction es with
  | nil => simp [AllFormed]
  | cons e es ih => simp [AllFormed, Formed, ih]

@[simp] theorem Phrase.allFormed_names {xs : List String} : AllFormed (xs.map name) ↔ ∀ x ∈ xs, IsName x := by
  induction xs with
  | nil => simp [AllFormed]
  | cons x xs ih => simp [AllFormed, Formed, ih]

def Lexical (t : Token) : Prop :=
  (t.kind = .identifier → IsName t.lexeme) ∧ (t.kind = .string → '"' ∉ t.lexeme.toList)

theorem mem_infix_of_operators {level : Level} {kind : Kind} {op : Operator} (h : (kind, op) ∈ level.operators) :
    op ∈ [.plus, .minus, .asterisk, .slash, .lt, .gt, .eq, .neq, .lteq, .gteq] := by
  have hall : ∀ entry ∈ level.operators,
      entry.2 ∈ [.plus, .minus, .asterisk, .slash, .lt, .gt, .eq, .neq, .lteq, .gteq] := by
    cases level <;> decide
  exact hall (kind, op) h

theorem mem_leading_of_signs {kind : Kind} {op : Operator} (h : (kind, op) ∈ signs) : op ∈ [.minus, .neg] := by
  have hall : ∀ entry ∈ signs, entry.2 ∈ [.minus, .neg] := by decide
  exact hall (kind, op) h

theorem mem_closing_of_steps {kind : Kind} {op : Operator} (h : (kind, op) ∈ steps) :
    op ∈ [.increment, .decrement] := by
  have hall : ∀ entry ∈ steps, entry.2 ∈ [.increment, .decrement] := by decide
  exact hall (kind, op) h

theorem Yields.formed {p : Phrase} {w : List Token} (h : Yields p w) (hw : ∀ t ∈ w, Lexical t) : p.Formed := by
  induction h with
  | lift _ ih => exact ih hw
  | binary hop _ _ ihl ihr =>
    simp only [List.mem_append, List.mem_cons] at hw
    exact .infixOp (mem_infix_of_operators hop) (ihl fun t ht => hw t (.inl ht)) (ihr fun t ht => hw t (.inr (.inr ht)))
  | sign hop _ ih => exact .prefixOp (mem_leading_of_signs hop) (ih fun t ht => hw t (List.mem_cons_of_mem _ ht))
  | step hop _ ih => exact .postfixOp (mem_closing_of_steps hop) (ih fun t ht => hw t (List.mem_append_left _ ht))
  | call hf _ _ _ _ ihf ihargs =>
    simp only [List.mem_append, List.mem_cons] at hw
    have hargs := ihargs fun t ht => hw t (.inr (.inr (.inl ht)))
    exact .call hf (ihf fun t ht => hw t (.inl ht)) (Phrase.allFormed_expressions.mp hargs)
  | index he _ _ _ _ ihe ihi =>
    simp only [List.mem_append, List.mem_cons] at hw
    exact .index he (ihe fun t ht => hw t (.inl ht)) (ihi fun t ht => hw t (.inr (.inr (.inl ht))))
  | int _ hn => exact .int (Int.natCast_nonneg _) (Int.ofNat_le.mpr hn.2.2)
  | str ht => exact .str ((hw _ List.mem_cons_self).2 ht)
  | ident ht | name ht => first | exact .ident ((hw _ List.mem_cons_self).1 ht) | exact (hw _ List.mem_cons_self).1 ht
  | trueWord _ | falseWord _ => exact .bool
  | group _ _ _ ih | condition _ _ _ ih =>
    simp only [List.mem_append, List.mem_cons] at hw
    exact ih fun t ht => hw t (.inr (.inl ht))
  | ifThen _ _ _ ihc ihy =>
    simp only [List.mem_append, List.mem_cons] at hw
    exact .ifThen (ihc fun t ht => hw t (.inr (.inl ht))) (ihy fun t ht => hw t (.inr (.inr ht)))
  | ifElse _ _ _ _ _ ihc ihy ihn =>
    simp only [List.mem_append, List.mem_cons] at hw
    exact .ifElse (ihc fun t ht => hw t (.inr (.inl ht))) (ihy fun t ht => hw t (.inr (.inr (.inl ht))))
      (ihn fun t ht => hw t (.inr (.inr (.inr (.inr ht)))))
  | fn _ _ _ _ _ ihparams ihb =>
    simp only [List.mem_append, List.mem_cons] at hw
    have hparams := ihparams fun t ht => hw t (.inr (.inr (.inl ht)))
    exact .fn (Phrase.allFormed_names.mp hparams) (ihb fun t ht => hw t (.inr (.inr (.inr (.inr ht)))))
  | array _ _ _ ih =>
    simp only [List.mem_append, List.mem_cons] at hw
    exact .array (Phrase.allFormed_expressions.mp (ih fun t ht => hw t (.inr (.inl ht))))
  | noItems => trivial
  | lastItem _ ih => exact ⟨ih hw, trivial⟩
  | moreItems _ _ _ ihp ihps =>
    simp only [List.mem_append, List.mem_cons] at hw
    exact ⟨ihp fun t ht => hw t (.inl ht), ihps fun t ht => hw t (.inr (.inr ht))⟩
  | block _ _ _ ih =>
    simp only [List.mem_append, List.mem_cons] at hw
    exact .block (ih fun t ht => hw t (.inr (.inl ht)))
  | letStmt _ hn hx _ _ ih =>
    simp only [List.mem_cons] at hw
    exact .letStmt (hx ▸ (hw _ (.inr (.inl rfl))).1 hn) (ih fun t ht => hw t (.inr (.inr (.inr ht))))
  | returnStmt _ _ ih => exact .returnStmt (ih fun t ht => hw t (List.mem_cons_of_mem _ ht))
  | whileStmt _ _ _ ihc ihb =>
    simp only [List.mem_append, List.mem_cons] at hw
    exact .whileStmt (ihc fun t ht => hw t (.inr (.inl ht))) (ihb fun t ht => hw t (.inr (.inr ht)))
  | exprStmt _ ih => exact .exprStmt (ih hw)
  | noStatements => simp [Phrase.Formed]
  | moreStatements _ _ _ ihs ihss =>
    simp only [List.mem_append] at hw
    exact List.forall_mem_cons.mpr ⟨ihs fun t ht => hw t (.inl ht), ihss fun t ht => hw t (.inr ht)⟩
  | program _ ih => exact .program (ih hw)

theorem lexical_of_mem_tokens {cs : List Char} {t : Token} (h : t ∈ tokens cs) : Lexical t := by
  rcases exists_spells_of_mem_tokens h with hillegal | ⟨spelling, more, hspells⟩
  · exact ⟨fun hkind => (by simp [hillegal] at hkind), fun hkind => (by simp [hillegal] at hkind)⟩
  · exact ⟨hspells.isName, hspells.quote_not_mem⟩

theorem formed_of_parse {source : String} {n : Node} (h : Program.parse source = .ok n) : n.Formed .program := by
  have hyields : Yields (.program n) (Token.ofSource source.toList) :=
    ofTokens_eq_ok_iff_yields (fun _ ht => Token.kind_ne_eof_of_mem_tokens ht) n |>.mp h
  exact hyields.formed fun t ht => lexical_of_mem_tokens ht

end Grammar
end Scriptlet
