import Mathlib.Data.List.MinMax
import Mathlib.Logic.Relation
import Scriptlet.Eval.Basic
import Scriptlet.Proofs.Evaluation.Steps

/-! Evaluations inside an evaluation.  A node evaluates its parts in a fixed order, and a part is reached only after the
ones before it gave values.  Almost every part is evaluated in the scope of its node, and what stops the part stops the
node (`Passes`).  Programs and function calls are the exception: they end the returns that come out of the statements of
the program and of the body of the function (`Catches`). -/
namespace Scriptlet

theorem Node.own_lt_frames (frames : Frames Node.Form (Node.Form × Node.Form)) (n : Node) :
    frames.own n.form < n.frames frames := by
  rw [Node.frames]
  exact Nat.le_max_left _ _

theorem Node.frames_child_le (frames : Frames Node.Form (Node.Form × Node.Form)) {n child : Node}
    (h : child ∈ n.children) : frames.around (n.form, child.form) + 1 + child.frames frames ≤ n.frames frames := by
  have hmem : frames.around (n.form, child.form) + 1 + child.frames frames ∈
      n.children.attach.map fun part => frames.around (n.form, part.1.form) + 1 + part.1.frames frames :=
    List.mem_map.mpr ⟨⟨child, h⟩, List.mem_attach _ _, rfl⟩
  rw [Node.frames.eq_1 frames n]
  exact Nat.le_trans (List.le_max_of_le' 0 hmem (Nat.le_refl _)) (Nat.le_max_right _ _)

namespace Eval
open Run

section
variable (settings : Settings) (inner : ScopeId → Node → Run Value) (scope : ScopeId)

/-- In state `s` a node gets to evaluate a part of it in state `s'`, and what stops the part stops the node. -/
inductive Passes : Node → State → Node → State → Prop
  | letStmt {x e s} : Passes (.letStmt x e) s e s
  | returnStmt {e s} : Passes (.returnStmt e) s e s
  | exprStmt {e s} : Passes (.exprStmt e) s e s
  | prefixOp {op e s} : Passes (.prefixOp op e) s e s
  | left {op l r s} : Passes (.infixOp op l r) s l s
  | right {op l r v s s'} (hl : inner scope l s = (.ok v, s')) : Passes (.infixOp op l r) s r s'
  | element {before e after vs s s'} (hbefore : each (inner scope) before s = (.ok vs, s')) :
      Passes (.array (before ++ e :: after)) s e s'
  | callee {f args s} : Passes (.call f args) s f s
  | builtinArg {f b before e after vs s s₁ s'} (hf : inner scope f s = (.ok (.builtin b), s₁))
      (hbefore : each (inner scope) before s₁ = (.ok vs, s')) : Passes (.call f (before ++ e :: after)) s e s'
  | functionArg {f params body captured before e after vs s s₁ s'}
      (hf : inner scope f s = (.ok (.fn params body captured), s₁))
      (hlength : params.length = (before ++ e :: after).length)
      (hbefore : each (inner scope) before s₁ = (.ok vs, s')) : Passes (.call f (before ++ e :: after)) s e s'
  | target {t i s} : Passes (.index t i) s t s
  | arrayPosition {t i id s s'} (ht : inner scope t s = (.ok (.arr id), s')) : Passes (.index t i) s i s'
  | stringPosition {t i id cs s s'} (ht : inner scope t s = (.ok (.str id), s')) (hcs : s'.texts[id]? = some cs) :
      Passes (.index t i) s i s'
  | ifThenCondition {c y s} : Passes (.ifThen c y) s c s
  | ifThenYes {c y s s'} (hc : inner scope c s = (.ok (.bool true), s')) : Passes (.ifThen c y) s y s'
  | ifElseCondition {c y n s} : Passes (.ifElse c y n) s c s
  | ifElseYes {c y n s s'} (hc : inner scope c s = (.ok (.bool true), s')) : Passes (.ifElse c y n) s y s'
  | ifElseNo {c y n s s'} (hc : inner scope c s = (.ok (.bool false), s')) : Passes (.ifElse c y n) s n s'
  | whileCondition {c b k s s'}
      (hrounds : Rounds (do truth .whileCondition (← inner scope c)) (inner scope b) k s s')
      (hk : k < settings.patience) : Passes (.whileStmt c b) s c s'
  | whileBody {c b k s s₁ s'}
      (hrounds : Rounds (do truth .whileCondition (← inner scope c)) (inner scope b) k s s₁)
      (hk : k < settings.patience) (hc : inner scope c s₁ = (.ok (.bool true), s')) : Passes (.whileStmt c b) s b s'
  | blockStmt {before e after v s s'} (hbefore : inOrder (inner scope) .null before s = (.ok v, s')) :
      Passes (.block (before ++ e :: after)) s e s'

/-- In state `s` a node gets to evaluate a part of it in state `s'`, and a `return` out of the part ends with the
node. -/
inductive Catches : Node → State → ScopeId → Node → State → Prop
  | programStmt {before e after v s s'} (hbefore : inOrder (inner scope) .null before s = (.ok v, s')) :
      Catches (.program (before ++ e :: after)) s scope e s'
  | body {f params body captured args vs s s₁ s'} (hf : inner scope f s = (.ok (.fn params body captured), s₁))
      (hlength : params.length = args.length) (hargs : each (inner scope) args s₁ = (.ok vs, s')) :
      Catches (.call f args) s s'.scopes.size body (s'.addScope (localScope captured params vs))

end

section
variable {settings : Settings} {room : Nat} {inner : ScopeId → Node → Run Value} {scope scope' : ScopeId} {n n' : Node}
  {s s' s'' : State} {why : Stop}

theorem truth_eq_ok {blame : ValueType → EvalError} {v : Value} {b : Bool} :
    truth blame v s = (.ok b, s') ↔ v = .bool b ∧ s = s' := by
  cases v <;> simp [truth, pure, fail, stop]

theorem truth_of_ok {blame : ValueType → EvalError} {b : Bool} (h : inner scope n s = (.ok (.bool b), s')) :
    (do truth blame (← inner scope n)) s = (.ok b, s') := bind_of_ok h

theorem Passes.node_eq (h : Passes settings inner scope n s n' s') (hstop : inner scope n' s' = (.error why, s'')) :
    node settings room inner scope n s = (.error why, s'') := by
  cases h with
  | letStmt | returnStmt | prefixOp | left | callee | target | ifThenCondition | ifElseCondition =>
    exact bind_of_error hstop
  | exprStmt => exact hstop
  | right hl => exact (bind_of_ok hl).trans (bind_of_error hstop)
  | element hbefore => exact bind_of_error (each_of_error hbefore hstop)
  | builtinArg hf hbefore => exact (bind_of_ok hf).trans (bind_of_error (each_of_error hbefore hstop))
  | functionArg hf hlength hbefore =>
    refine (bind_of_ok hf).trans ?_
    simp only [callFunction, hlength, ne_eq, not_true_eq_false, if_false]
    exact bind_of_error (each_of_error hbefore hstop)
  | arrayPosition ht => exact (bind_of_ok ht).trans (bind_of_error hstop)
  | stringPosition ht hcs =>
    exact (bind_of_ok ht).trans ((bind_of_ok (text_eq_ok.mpr ⟨hcs, rfl⟩)).trans (bind_of_error hstop))
  | ifThenYes hc | ifElseYes hc | ifElseNo hc => exact (bind_of_ok hc).trans hstop
  | whileCondition hrounds hk => exact repeatWhile_of_test_error hrounds hk (bind_of_error hstop)
  | whileBody hrounds hk hc => exact repeatWhile_of_body_error hrounds hk (truth_of_ok hc) hstop
  | blockStmt hbefore => exact inOrder_of_error hbefore hstop

theorem Catches.node_eq_of_returned {v : Value} (h : Catches inner scope n s scope' n' s')
    (hstop : inner scope' n' s' = (.error (.returned v), s'')) : node settings room inner scope n s = use v s'' := by
  cases h with
  | programStmt hbefore => exact endReturn_of_returned (inOrder_of_error hbefore hstop)
  | body hf hlength hargs =>
    refine (bind_of_ok hf).trans ?_
    simp only [callFunction, hlength, ne_eq, not_true_eq_false, if_false]
    exact (bind_of_ok hargs).trans (endReturn_of_returned hstop)

theorem Catches.node_eq_of_error (h : Catches inner scope n s scope' n' s')
    (hstop : inner scope' n' s' = (.error why, s'')) (hwhy : ∀ v, why ≠ .returned v) :
    node settings room inner scope n s = (.error why, s'') := by
  cases h with
  | programStmt hbefore => exact endReturn_of_error (inOrder_of_error hbefore hstop) hwhy
  | body hf hlength hargs =>
    refine (bind_of_ok hf).trans ?_
    simp only [callFunction, hlength, ne_eq, not_true_eq_false, if_false]
    exact (bind_of_ok hargs).trans (endReturn_of_error hstop hwhy)

end

abbrev inside (settings : Settings) (frames : Nat) (n : Node) : ScopeId → Node → Run Value := fun scope part =>
  eval settings (framesFor settings frames n part) scope part

abbrev Fits (settings : Settings) (frames : Nat) (n : Node) : Prop := settings.stack.evaluating.own n.form < frames

section
variable {settings : Settings} {frames : Nat} {scope : ScopeId} {n part : Node}

theorem eval_of_fits (h : Fits settings frames n) :
    eval settings frames scope n = node settings (roomFor settings frames n) (inside settings frames n) scope n := by
  rw [eval, if_pos h]

theorem eval_of_not_fits (h : ¬Fits settings frames n) : eval settings frames scope n = stop .tooDeep := by
  rw [eval, if_neg h]

theorem fits_of_frames_le (h : n.frames settings.stack.evaluating ≤ frames) : Fits settings frames n :=
  Nat.lt_of_lt_of_le (Node.own_lt_frames _ n) h

theorem frames_le_framesFor (h : n.frames settings.stack.evaluating ≤ frames) (hpart : part ∈ n.children) :
    part.frames settings.stack.evaluating ≤ framesFor settings frames n part := by
  have hle := Node.frames_child_le settings.stack.evaluating hpart
  unfold framesFor
  omega

theorem run_state (settings : Settings) (scope : ScopeId) (n : Node) (s : State) :
    (run settings scope n s).2 = (eval settings settings.frames scope n s).2 := by
  unfold run
  split <;> simp_all

/-- The value of a run is that of its evaluation, one that a `return` brings out, or an error. -/
theorem eval_of_run_value {s : State} {v : Value} (h : (run settings scope n s).1 = .value v) :
    eval settings settings.frames scope n s = (.ok v, (run settings scope n s).2) ∨
      eval settings settings.frames scope n s = (.error (.returned v), (run settings scope n s).2) ∨
        ∃ e, v = .error e := by
  rw [run_state]
  rcases heval : eval settings settings.frames scope n s with ⟨why | u, s'⟩
  · simp only [run, heval] at h
    cases why with
    | returned u =>
      obtain rfl := Result.value.inj h
      exact .inr (.inl rfl)
    | interrupted => cases h
    | _ => exact .inr (.inr ⟨_, (Result.value.inj h).symm⟩)
  · simp only [run, heval] at h
    obtain rfl := Result.value.inj h
    exact .inl rfl

end

/-- A node to evaluate, and all that its evaluation depends on. -/
structure Visit where
  frames : Nat
  scope : ScopeId
  node : Node
  state : State

namespace Visit
variable (settings : Settings)

def outcome (v : Visit) : Except Stop Value × State := eval settings v.frames v.scope v.node v.state

/-- A visit and one inside it whose stops are its own. -/
inductive Forwards : Visit → Visit → Prop
  | part {frames scope n s n' s'} (hfits : Fits settings frames n)
      (h : Passes settings (inside settings frames n) scope n s n' s') :
      Forwards ⟨frames, scope, n, s⟩ ⟨framesFor settings frames n n', scope, n', s'⟩

/-- A visit and one inside it whose returns it ends. -/
inductive Delimits : Visit → Visit → Prop
  | part {frames scope n s scope' n' s'} (hfits : Fits settings frames n)
      (h : Catches (inside settings frames n) scope n s scope' n' s') :
      Delimits ⟨frames, scope, n, s⟩ ⟨framesFor settings frames n n', scope', n', s'⟩

/-- The evaluation of one node comes to that of another. -/
def Enters (v w : Visit) : Prop := Forwards settings v w ∨ Delimits settings v w

variable {settings} {v w : Visit} {s : State} {why : Stop}

theorem Forwards.outcome_eq (h : Forwards settings v w) (hstop : w.outcome settings = (.error why, s)) :
    v.outcome settings = (.error why, s) := by
  cases h with
  | part hfits h => exact (congrFun (eval_of_fits hfits) _).trans (h.node_eq hstop)

theorem Delimits.outcome_eq_of_returned {value : Value} (h : Delimits settings v w)
    (hstop : w.outcome settings = (.error (.returned value), s)) : v.outcome settings = use value s := by
  cases h with
  | part hfits h => exact (congrFun (eval_of_fits hfits) _).trans (h.node_eq_of_returned hstop)

theorem Delimits.outcome_eq_of_error (h : Delimits settings v w) (hstop : w.outcome settings = (.error why, s))
    (hwhy : ∀ value, why ≠ .returned value) : v.outcome settings = (.error why, s) := by
  cases h with
  | part hfits h => exact (congrFun (eval_of_fits hfits) _).trans (h.node_eq_of_error hstop hwhy)

/-- A stop goes out through any number of visits that pass it on. -/
theorem outcome_eq_of_forwards (h : Relation.ReflTransGen (Forwards settings) v w)
    (hstop : w.outcome settings = (.error why, s)) : v.outcome settings = (.error why, s) := by
  induction h using Relation.ReflTransGen.head_induction_on with
  | refl => exact hstop
  | head hfirst _ ih => exact hfirst.outcome_eq ih

/-- Any stop but a `return` goes out through all visits. -/
theorem outcome_eq_of_enters (h : Relation.ReflTransGen (Enters settings) v w)
    (hstop : w.outcome settings = (.error why, s)) (hwhy : ∀ value, why ≠ .returned value) :
    v.outcome settings = (.error why, s) := by
  induction h using Relation.ReflTransGen.head_induction_on with
  | refl => exact hstop
  | head hfirst _ ih =>
    rcases hfirst with hforwards | hdelimits
    · exact hforwards.outcome_eq ih
    · exact hdelimits.outcome_eq_of_error ih hwhy

end Visit

end Eval
end Scriptlet
