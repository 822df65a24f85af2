import Scriptlet.Proofs.Parsing.Exactness
import Scriptlet.Proofs.Syntax.Inside

/-! What the trees of programs look like.  The grammar makes nodes of tokens and leaves no bare token in a tree. -/
namespace Scriptlet

/-- Bare tokens, the only nodes for which there is no rule of evaluation. -/
def Node.isToken : Node → Bool
  | token _ => true
  | _ => false

def Node.Tokenless : Node → Prop := Node.Everywhere fun n => n.isToken = false

def Program.Parsed (n : Node) : Prop := ∃ source, Program.parse source = .ok n

namespace Grammar

mutual

def Phrase.trees : Phrase → List Node
  | expression _ e | condition e => [e]
  | name _ => []
  | items ps => itemTrees ps
  | block b => [b]
  | statement s => [s]
  | statements ss => ss
  | program p => [p]

def Phrase.itemTrees : List Phrase → List Node
  | [] => []
  | p :: ps => trees p ++ itemTrees ps

end

@[simp] theorem Phrase.itemTrees_expressions (level : Level) (es : List Node) :
    itemTrees (es.map (expression level)) = es := by
  induction es with
  | nil => rfl
  | cons e es ih => simp [itemTrees, trees, ih]

theorem Yields.trees_tokenless {p : Phrase} {w : List Token} (h : Yields p w) : ∀ n ∈ p.trees, n.Tokenless := by
  have made {n : Node} (hn : n.isToken = false) (h : ∀ c ∈ n.children, c.Tokenless) : ∀ m ∈ [n], m.Tokenless := by
    intro m hm
    rw [List.mem_singleton.mp hm]
    exact .intro hn h
  induction h with
  | lift _ ih | group _ _ _ ih | condition _ _ _ ih => simpa [Phrase.trees] using ih
  | name _ | noItems | noStatements => simp [Phrase.trees, Phrase.itemTrees]
  | lastItem _ ih => simpa [Phrase.trees, Phrase.itemTrees] using ih
  | moreItems _ _ _ ihp ihps | moreStatements _ _ _ ihp ihps =>
    simp only [Phrase.trees, Phrase.itemTrees] at ihp ihps ⊢
    simp_all [or_imp, forall_and]
  | _ =>
    refine made rfl ?_
    simp_all [Phrase.trees, Node.children]

/-- A text that parses gives a tree of nodes each of which has a rule of evaluation. -/
theorem tokenless_of_parse {source : String} {n : Node} (h : Program.parse source = .ok n) : n.Tokenless := by
  have hyields : Yields (.program n) (Token.ofSource source.toList) :=
    ofTokens_eq_ok_iff_yields (fun _ ht => Token.kind_ne_eof_of_mem_tokens ht) n |>.mp h
  exact hyields.trees_tokenless n (by simp [Phrase.trees])

end Grammar
end Scriptlet
