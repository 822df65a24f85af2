import Scriptlet.Proofs.Evaluation.Safety
import Scriptlet.Proofs.Evaluation.Stopping

/-! Which errors a node can be to blame for.  Each construct has errors of its own, an error is raised by the node that it
is about, and builtin functions only ever refuse their arguments. -/
namespace Scriptlet
open Relation (ReflTransGen)

namespace Run
variable {α : Type}

def Unfailing (r : Run α) : Prop := ∀ s e s', r s ≠ (.error (.failed e), s')

theorem truth_eq_failed {blame : ValueType → EvalError} {v : Value} {e : EvalError} {s s' : State}
    (h : Eval.truth blame v s = (.error (.failed e), s')) : ∃ found, found ≠ .boolean ∧ e = blame found := by
  cases v with
  | bool b => cases h
  | _ => exact ⟨_, by simp [Value.type], Stop.failed.inj (fail_eq_error h).1⟩

end Run

/-- A builtin function gives its errors as values and stops with none. -/
theorem Builtin.unfailing_call (b : Builtin) (settings : Settings) (room : Nat) (args : List Value) :
    Run.Unfailing (b.call settings room args) := fun s e s' h => stopsBy_call b settings room args s (.failed e) s' h

namespace Node

inductive Blames : Node → EvalError → Prop
  | builtinName {x e} (hx : (Builtin.ofName? x).isSome) : Blames (.letStmt x e) (.builtinName x)
  | whileCondition {c b found} (h : found ≠ .boolean) : Blames (.whileStmt c b) (.whileCondition found)
  | ifThen {c y found} (h : found ≠ .boolean) : Blames (.ifThen c y) (.ifCondition found)
  | ifElse {c y n found} (h : found ≠ .boolean) : Blames (.ifElse c y n) (.ifCondition found)
  | prefixOp {op e v err} (h : Operator.applyPrefix op v = .error err) : Blames (.prefixOp op e) err
  | infixOp {op l r v w err} (h : Operator.applyInfix op v w = .error err) : Blames (.infixOp op l r) err
  | unknownPostfixOp {op e} (h : op.postfixStep? = none) : Blames (.postfixOp op e) (.unknownPostfixOp e op)
  | postfixTarget {op e} (h : ∀ x, e ≠ .ident x) : Blames (.postfixOp op e) (.postfixTarget op e)
  | postfixUndeclared {op x} : Blames (.postfixOp op (.ident x)) (.postfixUndeclared op x)
  | postfixNotInteger {op x} : Blames (.postfixOp op (.ident x)) (.postfixNotInteger op x)
  | notInvocable {f args found} : Blames (.call f args) (.notInvocable found)
  | argumentCount {f args formal} (h : formal ≠ args.length) : Blames (.call f args) (.argumentCount formal args.length)
  | refusal {f args e} (he : e.isRefusal) : Blames (.call f args) e
  | notIndexable {t i found} : Blames (.index t i) (.notIndexable found)
  | badIndex {t i found} : Blames (.index t i) (.badIndex found)
  | indexBeyond {t i kind} {length : Nat} {position : Int} (h : (length : Int) ≤ position) :
      Blames (.index t i) (.indexBeyond kind length position)
  | reverseIndexBeyond {t i kind} {length : Nat} {position : Int} (h : position < -(length : Int)) :
      Blames (.index t i) (.reverseIndexBeyond kind length position)
  | token {t} : Blames (.token t) (.unknownNode t)

end Node

namespace Eval
open Run Law
variable {settings : Settings} {room : Nat} {inner : ScopeId → Node → Run Value} {E : ScopeId} {n : Node}
  {s s' : State} {e : EvalError}

theorem use_ne_failed {v : Value} (hv : v.isData) : use v s ≠ (.error (.failed e), s') := by
  rw [use_of_isData hv]
  simp

theorem blame_eq_failed {err : EvalError} (h : blame settings room n err s = (.error (.failed e), s')) : e = err := by
  rcases bind_eq_error.mp h with hmake | ⟨_, _, -, hfail⟩
  · cases (makeText_eq_error.mp hmake).2.1
  · exact Stop.failed.inj (fail_eq_error hfail).1

theorem blames_of_postfixOp {op : Operator} {operand : Node}
    (h : postfixOp settings room E op operand s = (.error (.failed e), s')) : (Node.postfixOp op operand).Blames e := by
  cases hstep : op.postfixStep? with
  | none =>
    simp only [postfixOp, hstep] at h
    exact blame_eq_failed h ▸ .unknownPostfixOp hstep
  | some step =>
    simp only [postfixOp, hstep] at h
    cases operand with
    | ident x =>
      have hlook : look (·.lookup E x) s = (.ok (s.lookup E x), s) := rfl
      simp only at h
      rw [bind_of_ok hlook] at h
      cases hv : s.lookup E x with
      | int m =>
        rw [hv] at h
        rcases bind_eq_error.mp h with hbind | ⟨_, _, -, hdone⟩
        · cases (bindName_eq_error hbind).2.1
        · cases hdone
      | null =>
        rw [hv] at h
        exact Stop.failed.inj (fail_eq_error h).1 ▸ .postfixUndeclared
      | _ =>
        rw [hv] at h
        exact Stop.failed.inj (fail_eq_error h).1 ▸ .postfixNotInteger
    | _ => exact blame_eq_failed h ▸ .postfixTarget (by simp)

theorem blames_of_position {t i : Node} {v : Value} (kind : SequenceKind) {rest : Int → Run Value}
    (hrest : ∀ position s', rest position s = (.error (.failed e), s') →
      ∃ (α : Type) (items : List α) (s' : State), select kind items position s = (.error (.failed e), s'))
    (h : (do let position ← asPosition v; rest position) s = (.error (.failed e), s')) : (Node.index t i).Blames e := by
  cases v with
  | int position =>
    obtain ⟨α, items, s₁, hselect⟩ := hrest position s' h
    rcases select_eq_error hselect with ⟨hbeyond, he⟩ | ⟨hbeyond, he⟩
    · exact Stop.failed.inj he ▸ .indexBeyond hbeyond
    · exact Stop.failed.inj he ▸ .reverseIndexBeyond hbeyond
  | _ => exact Stop.failed.inj (fail_eq_error h).1 ▸ .badIndex

theorem blames_of_arrayItem {t i : Node} {id : ArrayId} {v : Value} (hclean : s.Clean)
    (h : (do let n ← asPosition v; use (← select .array (← array id) n)) s = (.error (.failed e), s')) :
    (Node.index t i).Blames e := by
  refine blames_of_position .array (fun position s₁ hrest => ?_) h
  rcases bind_eq_error.mp hrest with harray | ⟨vs, s₂, harray, hitem⟩
  · cases (find_eq_error.mp harray).2.1
  · obtain ⟨hvs, rfl⟩ := find_eq_ok.mp harray
    rcases bind_eq_error.mp hitem with hselect | ⟨u, s₂, hselect, huse⟩
    · exact ⟨Value, vs, s₁, hselect⟩
    · have hkeeps : onlyData.Keeps 0 (fun _ u => u ∈ vs) s (select .array vs position s) :=
        keeps_select onlyData_closed hclean
      have hmem := (hkeeps.of_ok hselect).2
      exact absurd huse (use_ne_failed (hclean.elements id vs hvs u hmem))

theorem blames_of_stringItem {t i : Node} {cs : List Char} {v : Value}
    (h : (do let n ← asPosition v; newText [← select .string cs n]) s = (.error (.failed e), s')) :
    (Node.index t i).Blames e := by
  refine blames_of_position .string (fun position s₁ hrest => ?_) h
  rcases bind_eq_error.mp hrest with hselect | ⟨c, s₂, -, hnew⟩
  · exact ⟨Char, cs, s₁, hselect⟩
  · cases hnew

/-- The errors that a node raises are among those that it may raise, as long as only data is kept. -/
theorem Raises.blames (hinner : onlyData.Obeys inner) (hclean : s.Clean)
    (h : Raises settings room inner E n s (.failed e) s') : n.Blames e := by
  have hpart {c : Node} {v : Value} {s s' : State} (hs : s.Clean) (hv : inner E c s = (.ok v, s')) : s'.Clean :=
    ((hinner E c s ⟨hs, trivial⟩ trivial).of_ok hv).1.1
  cases h with
  | builtinName _ hx => exact .builtinName hx
  | @ident x _ _ _ huse =>
    have hready : onlyData.Ready E s := ⟨hclean, trivial⟩
    have hdata : onlyData.Allows s (s.lookup E x) := allows_lookup onlyData_closed hready
    exact absurd huse (use_ne_failed hdata)
  | prefixOp _ hop => exact .prefixOp hop
  | infixOp _ _ hop => exact .infixOp hop
  | postfixOp hop => exact blames_of_postfixOp hop
  | ifThen _ hv =>
    obtain ⟨found, hfound, rfl⟩ := truth_eq_failed hv
    exact .ifThen hfound
  | ifElse _ hv =>
    obtain ⟨found, hfound, rfl⟩ := truth_eq_failed hv
    exact .ifElse hfound
  | whileCondition _ _ _ hv =>
    obtain ⟨found, hfound, rfl⟩ := truth_eq_failed hv
    exact .whileCondition hfound
  | notInvocable _ _ _ => exact .notInvocable
  | argumentCount _ hlength => exact .argumentCount hlength
  | @builtin f b args vs _ _ s₁ s₂ _ hf hargs hb =>
    have h₁ := hpart hclean hf
    obtain ⟨hnext, hdata⟩ :=
      (keeps_nodes onlyData_closed hinner ⟨h₁, trivial⟩ fun _ _ => trivial).of_ok hargs
    have hkeeps : onlyData.Keeps E onlyData.Gives s₂ (b.call settings room vs s₂) :=
      keeps_builtin onlyData_closed hnext.1 hdata
    rcases bind_eq_error.mp hb with hstop | ⟨v, s₃, hok, huse⟩
    · exact absurd hstop (Builtin.unfailing_call b _ _ _ _ _ _)
    · rcases (hkeeps.of_ok hok).2 with ⟨err, hrefusal, rfl⟩ | hv
      · exact Stop.failed.inj (fail_eq_error huse).1 ▸ .refusal hrefusal
      · exact absurd huse (use_ne_failed hv)
  | notIndexable _ _ _ => exact .notIndexable
  | arrayItem ht hi hitem => exact blames_of_arrayItem (hpart (hpart hclean ht) hi) hitem
  | stringItem _ _ _ hitem => exact blames_of_stringItem hitem
  | token => exact .token
  | @signal _ F n' v _ _ s₁ s₂ _ hcatches hstop huse =>
    have hF := (ready_of_catches onlyData_closed hinner ⟨hclean, trivial⟩ trivial hcatches).1
    have hv := ((hinner F n' s₁ hF trivial).of_returned hstop).2
    exact absurd huse (use_ne_failed hv)

/-- An error of an evaluation is one that some node on the way may raise. -/
theorem Visit.exists_blames {v : Visit} (hclean : v.state.Clean)
    (h : v.outcome settings = (.error (.failed e), s)) :
    ∃ w, ReflTransGen (Visit.Enters settings) v w ∧ w.node.Blames e := by
  obtain ⟨w, hw, hraises⟩ := Visit.exists_raises h
  have hstart := clean_of_enters hclean hw
  cases hraises with
  | byNode _ hraises => exact ⟨_, hw, hraises.blames (obeys_inside onlyData_closed settings _ _) hstart⟩

end Eval
end Scriptlet
