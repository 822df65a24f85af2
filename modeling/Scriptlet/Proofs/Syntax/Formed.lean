import Scriptlet.Proofs.Syntax.Inside
import Scriptlet.Proofs.Tokens.Spelling

/-! Well-formed syntax trees.  Programs hold statements, statements hold expressions, and the bodies of loops, branches
and functions are blocks, which hold statements again; operators, names and literals are those that a program text can
have in their places. -/
namespace Scriptlet

inductive Place
  | program | block | statement | expression
deriving DecidableEq

namespace Node
open Token Operator

/-- A node may stand in a place, and so may all nodes inside it in theirs. -/
inductive Formed : Place → Node → Prop
  | program {body} (hbody : ∀ s ∈ body, Formed .statement s) : Formed .program (.program body)
  | block {body} (hbody : ∀ s ∈ body, Formed .statement s) : Formed .block (.block body)
  | letStmt {x e} (hx : IsName x) (he : Formed .expression e) : Formed .statement (.letStmt x e)
  | returnStmt {e} (he : Formed .expression e) : Formed .statement (.returnStmt e)
  | exprStmt {e} (he : Formed .expression e) : Formed .statement (.exprStmt e)
  | whileStmt {c b} (hc : Formed .expression c) (hb : Formed .block b) : Formed .statement (.whileStmt c b)
  | ident {x} (hx : IsName x) : Formed .expression (.ident x)
  | int {n} (hpos : 0 ≤ n) (hmax : n ≤ 2147483647) : Formed .expression (.int n)
  | bool {b} : Formed .expression (.bool b)
  | str {x} (hx : '"' ∉ x.toList) : Formed .expression (.str x)
  | prefixOp {op e} (hop : op ∈ [minus, neg]) (he : Formed .expression e) : Formed .expression (.prefixOp op e)
  | infixOp {op l r} (hop : op ∈ [plus, minus, asterisk, slash, lt, gt, eq, neq, lteq, gteq])
      (hl : Formed .expression l) (hr : Formed .expression r) : Formed .expression (.infixOp op l r)
  | postfixOp {op e} (hop : op ∈ [increment, decrement]) (he : Formed .expression e) :
      Formed .expression (.postfixOp op e)
  | ifThen {c y} (hc : Formed .expression c) (hy : Formed .block y) : Formed .expression (.ifThen c y)
  | ifElse {c y n} (hc : Formed .expression c) (hy : Formed .block y) (hn : Formed .block n) :
      Formed .expression (.ifElse c y n)
  | fn {params b} (hparams : ∀ x ∈ params, IsName x) (hb : Formed .block b) : Formed .expression (.fn params b)
  | call {f args} (hcallable : f.isCallable) (hf : Formed .expression f) (hargs : ∀ e ∈ args, Formed .expression e) :
      Formed .expression (.call f args)
  | array {es} (hes : ∀ e ∈ es, Formed .expression e) : Formed .expression (.array es)
  | index {e i} (hindexable : e.isIndexable) (he : Formed .expression e) (hi : Formed .expression i) :
      Formed .expression (.index e i)

theorem Formed.child {place : Place} {n c : Node} (h : Formed place n) (hc : c ∈ n.children) :
    ∃ place', Formed place' c := by
  cases h with
  | program hbody | block hbody => exact ⟨_, hbody c hc⟩
  | letStmt _ he | returnStmt he | exprStmt he | prefixOp _ he | postfixOp _ he | fn _ he =>
    exact ⟨_, List.mem_singleton.mp hc ▸ he⟩
  | whileStmt hc' hb | ifThen hc' hb =>
    simp only [children, List.mem_cons, List.not_mem_nil, or_false] at hc
    rcases hc with rfl | rfl
    · exact ⟨_, hc'⟩
    · exact ⟨_, hb⟩
  | infixOp _ hl hr | index _ hl hr =>
    simp only [children, List.mem_cons, List.not_mem_nil, or_false] at hc
    rcases hc with rfl | rfl
    · exact ⟨_, hl⟩
    · exact ⟨_, hr⟩
  | ifElse hc' hy hn =>
    simp only [children, List.mem_cons, List.not_mem_nil, or_false] at hc
    rcases hc with rfl | rfl | rfl
    · exact ⟨_, hc'⟩
    · exact ⟨_, hy⟩
    · exact ⟨_, hn⟩
  | call _ hf hargs =>
    rcases List.mem_cons.mp hc with rfl | hc
    · exact ⟨_, hf⟩
    · exact ⟨_, hargs c hc⟩
  | array hes => exact ⟨_, hes c hc⟩
  | ident _ | int _ _ | bool | str _ => cases hc

theorem Formed.inside {place : Place} {n m : Node} (h : n.Formed place) (hm : n.Inside m) :
    ∃ place', Formed place' m := by
  induction hm with
  | refl => exact ⟨place, h⟩
  | child _ hc ih =>
    obtain ⟨place', hm⟩ := ih
    exact hm.child hc

end Node
end Scriptlet
