import Mathlib
import Scriptlet.Proofs.Evaluation.Steps
import Scriptlet.Proofs.Evaluation.Words

/-! Integer expressions and the arithmetic of 32-bit machine words.  The evaluator computes with integers and wraps its
results; bit vectors add, multiply and divide words as they are.  Both give the same, up to the first division by zero. -/
namespace Scriptlet
namespace Arithmetic
open Eval Run

inductive Op
  | add | sub | mul | div
deriving DecidableEq, Repr

def Op.operator : Op → Operator
  | add => .plus
  | sub => .minus
  | mul => .asterisk
  | div => .slash

/-- The operation of a machine.  Division drops the fraction. -/
def Op.onWords : Op → BitVec 32 → BitVec 32 → BitVec 32
  | add, a, b => a + b
  | sub, a, b => a - b
  | mul, a, b => a * b
  | div, a, b => a.sdiv b

inductive Term
  | literal (n : Fin 2147483648)
  | name (x : String)
  | neg (t : Term)
  | binary (op : Op) (l r : Term)
deriving DecidableEq, Repr

namespace Term

def node : Term → Node
  | literal n => .int n.val
  | name x => .ident x
  | neg t => .prefixOp .minus t.node
  | binary op l r => .infixOp op.operator l.node r.node

def names : Term → List String
  | literal _ => []
  | name x => [x]
  | neg t => t.names
  | binary _ l r => l.names ++ r.names

def value (values : String → Int) : Term → BitVec 32
  | literal n => BitVec.ofInt 32 n.val
  | name x => BitVec.ofInt 32 (values x)
  | neg t => -t.value values
  | binary op l r => op.onWords (l.value values) (r.value values)

/-- The divisions in a term by their two operands, in the order in which they are made. -/
def divisions : Term → List (Term × Term)
  | literal _ | name _ => []
  | neg t => t.divisions
  | binary .div l r => l.divisions ++ r.divisions ++ [(l, r)]
  | binary _ l r => l.divisions ++ r.divisions

end Term

/-- The error of the first of some divisions whose divisor comes to zero. -/
def fault? (values : String → Int) (divisions : List (Term × Term)) : Option EvalError :=
  (divisions.find? fun division => division.2.value values = 0).map fun (l, r) =>
    .divisionByZero (l.value values).toInt (r.value values).toInt

/-- What divisions come to if the result is `a` once none of them fails. -/
def guarded {α : Type} (values : String → Int) (divisions : List (Term × Term)) (a : α) : Except EvalError α :=
  match fault? values divisions with
  | some e => .error e
  | none => .ok a

/-- A name that is none of a builtin function stands for a word. -/
structure Stands (s : State) (scope : ScopeId) (values : String → Int) (x : String) : Prop where
  free : Builtin.ofName? x = none
  word : IsInt32 (values x)
  bound : s.lookup scope x = .int (values x)

def word (w : BitVec 32) : Value := .int w.toInt

theorem toInt_ofInt_of_isInt32 {n : Int} (h : IsInt32 n) : (BitVec.ofInt 32 n).toInt = n := by
  obtain ⟨hmin, hmax⟩ := h
  rw [BitVec.toInt_ofInt]
  exact Int.bmod_eq_of_le (by norm_num; omega) (by norm_num; omega)

def Op.apply (op : Op) (a b : BitVec 32) : Except EvalError (BitVec 32) :=
  if op = .div ∧ b = 0 then .error (.divisionByZero a.toInt b.toInt) else .ok (op.onWords a b)

theorem applyInts_toInt (op : Op) (a b : BitVec 32) :
    op.operator.applyInts a.toInt b.toInt = (op.apply a b).map word := by
  have hwrap {w : BitVec 32} {n : Int} (h : w.toInt = n.bmod (2 ^ 32)) : wrap n = w.toInt :=
    (wrap_eq_bmod n).trans h.symm
  cases op with
  | add => exact congrArg (fun n => Except.ok (Value.int n)) (hwrap (BitVec.toInt_add a b))
  | sub => exact congrArg (fun n => Except.ok (Value.int n)) (hwrap BitVec.toInt_sub)
  | mul => exact congrArg (fun n => Except.ok (Value.int n)) (hwrap (BitVec.toInt_mul a b))
  | div =>
    by_cases hb : b = 0
    · rw [Op.apply, if_pos ⟨rfl, hb⟩, hb]
      rfl
    · have hzero : b.toInt ≠ 0 := fun h => hb (BitVec.toInt_inj.mp (h.trans BitVec.toInt_zero.symm))
      rw [Op.apply, if_neg fun h => hb h.2, Op.operator, Operator.applyInts, if_neg hzero,
        quotient_eq_tdiv]
      exact congrArg (fun n => Except.ok (Value.int n)) (hwrap (BitVec.toInt_sdiv a b))

section
variable {values : String → Int}

theorem fault?_append (ds es : List (Term × Term)) :
    fault? values (ds ++ es) = (fault? values ds).or (fault? values es) := by
  rw [fault?, List.find?_append, fault?, fault?]
  cases List.find? _ ds <;> rfl

theorem guarded_bind {α β : Type} {ds es : List (Term × Term)} {a : α} {b : β} {f : α → Except EvalError β}
    (h : f a = guarded values es b) : guarded values ds a >>= f = guarded values (ds ++ es) b := by
  unfold guarded at h ⊢
  rw [fault?_append]
  cases fault? values ds with
  | some e => rfl
  | none => exact h

end

namespace Term
variable {settings : Settings} {scope : ScopeId} {s : State} {values : String → Int}

def outcome (values : String → Int) (t : Term) : Except EvalError (BitVec 32) :=
  guarded values t.divisions (t.value values)

theorem outcome_neg (t : Term) : (neg t).outcome values = t.outcome values >>= fun a => .ok (-a) := by
  have h : (t.outcome values >>= fun a => .ok (-a)) = guarded values (t.divisions ++ []) (-t.value values) :=
    guarded_bind rfl
  rw [List.append_nil] at h
  exact h.symm

/-- The operands come first, from left to right. -/
theorem outcome_binary (op : Op) (l r : Term) : (binary op l r).outcome values =
    (do let a ← l.outcome values; let b ← r.outcome values; op.apply a b) := by
  have hlast : op.apply (l.value values) (r.value values) =
      guarded values (if op = .div then [(l, r)] else []) ((binary op l r).value values) := by
    cases op with
    | div => by_cases hr : r.value values = 0#32 <;> simp [Op.apply, guarded, fault?, value, hr]
    | _ => rfl
  have hdivisions : (binary op l r).divisions = l.divisions ++ (r.divisions ++ if op = .div then [(l, r)] else []) := by
    cases op <;> simp [divisions]
  have hright : (do let b ← r.outcome values; op.apply (l.value values) b) =
      guarded values (r.divisions ++ if op = .div then [(l, r)] else []) ((binary op l r).value values) :=
    guarded_bind hlast
  have hboth : (do let a ← l.outcome values; let b ← r.outcome values; op.apply a b) =
      guarded values (l.divisions ++ (r.divisions ++ if op = .div then [(l, r)] else [])) ((binary op l r).value values) :=
    guarded_bind hright
  rw [outcome, hdivisions, hboth]

end Term

/-- An evaluation gives what is expected, if there are the frames for it. -/
def Settles (settings : Settings) (scope : ScopeId) (s : State) (n : Node) (expected : Except EvalError Value) : Prop :=
  ∀ frames, eval settings frames scope n s = ofExcept expected s ∨
    frames < n.frames settings.stack.evaluating ∧ eval settings frames scope n s = (.error .tooDeep, s)

section
variable {settings : Settings} {scope : ScopeId} {s : State} {values : String → Int}

/-- What is expected of a step after a part is expected of the step if the part gives what is expected of it. -/
theorem bind_of_expected {r : Run Value} {f : Value → Run Value} {o : Except EvalError (BitVec 32)}
    {g : BitVec 32 → Except EvalError Value} (hr : r s = ofExcept (o.map word) s)
    (hf : ∀ a, f (word a) s = ofExcept (g a) s) : (r >>= f) s = ofExcept (o >>= g) s := by
  cases o with
  | error e => exact bind_of_error hr
  | ok a => exact (bind_of_ok hr).trans (hf a)

/-- A node gives what is expected of it if it does so whenever its parts have the frames that they take. -/
theorem settles_of_node {n : Node} {expected : Except EvalError Value}
    (h : ∀ frames, node settings (roomFor settings frames n) (inside settings frames n) scope n s = ofExcept expected s ∨
      (∃ child ∈ n.children, framesFor settings frames n child < child.frames settings.stack.evaluating) ∧
        node settings (roomFor settings frames n) (inside settings frames n) scope n s = (.error .tooDeep, s)) :
    Settles settings scope s n expected := by
  intro frames
  by_cases hfits : Fits settings frames n
  · rw [eval_of_fits hfits]
    refine (h frames).imp_right fun ⟨⟨child, hchild, hlt⟩, hstop⟩ => ⟨?_, hstop⟩
    have hle := Node.frames_child_le settings.stack.evaluating hchild
    unfold framesFor at hlt
    omega
  · rw [eval_of_not_fits hfits]
    have hlt := Node.own_lt_frames settings.stack.evaluating n
    exact .inr ⟨by omega, rfl⟩

theorem settles_infixOp {op : Operator} {l r : Term} {g : BitVec 32 → BitVec 32 → Except EvalError Value}
    (hop : ∀ a b : BitVec 32, op.applyInts a.toInt b.toInt = g a b)
    (hl : Settles settings scope s l.node ((l.outcome values).map word))
    (hr : Settles settings scope s r.node ((r.outcome values).map word)) :
    Settles settings scope s (.infixOp op l.node r.node)
      (do let a ← l.outcome values; let b ← r.outcome values; g a b) := by
  refine settles_of_node fun frames => ?_
  rcases hl (framesFor settings frames _ _) with hleft | ⟨hlt, hdeep⟩
  · rcases hr (framesFor settings frames _ _) with hright | ⟨hlt, hdeep⟩
    · left
      refine bind_of_expected hleft fun a => bind_of_expected hright fun b => ?_
      rw [← hop a b]
      rfl
    · cases ho : l.outcome values with
      | error e =>
        rw [ho] at hleft
        exact .inl (bind_of_error hleft)
      | ok a =>
        rw [ho] at hleft
        exact .inr ⟨⟨r.node, by simp [Node.children], hlt⟩, (bind_of_ok hleft).trans (bind_of_error hdeep)⟩
  · exact .inr ⟨⟨l.node, by simp [Node.children], hlt⟩, bind_of_error hdeep⟩

theorem settles_literal (n : Fin 2147483648) :
    Settles settings scope s (.int n.val) (.ok (word ((Term.literal n).value values))) := by
  have hn : IsInt32 n.val := ⟨by omega, by omega⟩
  have hword : word ((Term.literal n).value values) = .int n.val := congrArg Value.int (toInt_ofInt_of_isInt32 hn)
  rw [hword]
  exact settles_of_node fun _ => .inl rfl

theorem settles_name {x : String} (h : Stands s scope values x) :
    Settles settings scope s (.ident x) (.ok (word ((Term.name x).value values))) := by
  have hword : word ((Term.name x).value values) = .int (values x) :=
    congrArg Value.int (toInt_ofInt_of_isInt32 h.word)
  rw [hword]
  refine settles_of_node fun _ => .inl ?_
  simp only [node, ident, h.free]
  show use (s.lookup scope x) s = _
  rw [h.bound]
  rfl

theorem settles_term {t : Term} (h : ∀ x ∈ t.names, Stands s scope values x) :
    Settles settings scope s t.node ((t.outcome values).map word) := by
  induction t with
  | literal n => exact settles_literal n
  | name x => exact settles_name (h x (by simp [Term.names]))
  | neg t ih =>
    have hneg : ((Term.neg t).outcome values).map word = t.outcome values >>= fun a => .ok (word (-a)) := by
      rw [Term.outcome_neg]
      cases t.outcome values <;> rfl
    rw [hneg]
    refine settles_of_node fun frames => ?_
    rcases ih h (framesFor settings frames _ _) with hoperand | ⟨hlt, hdeep⟩
    · left
      refine bind_of_expected hoperand fun a => ?_
      have hwrap : wrap (-a.toInt) = (-a).toInt := (wrap_eq_bmod _).trans BitVec.toInt_neg.symm
      exact congrArg (fun n => (Except.ok (Value.int n), s)) hwrap
    · exact .inr ⟨⟨t.node, List.mem_singleton_self _, hlt⟩, bind_of_error hdeep⟩
  | binary op l r ihl ihr =>
    have hbinary : ((Term.binary op l r).outcome values).map word =
        (do let a ← l.outcome values; let b ← r.outcome values; (op.apply a b).map word) := by
      rw [Term.outcome_binary]
      cases l.outcome values with
      | error e => rfl
      | ok a => cases r.outcome values <;> rfl
    rw [hbinary]
    refine settles_infixOp (applyInts_toInt op) (ihl fun x hx => h x ?_) (ihr fun x hx => h x ?_)
    · exact List.mem_append_left _ hx
    · exact List.mem_append_right _ hx

end

inductive Comparison
  | lt | gt | eq | neq | lteq | gteq
deriving DecidableEq, Repr

def Comparison.operator : Comparison → Operator
  | lt => .lt
  | gt => .gt
  | eq => .eq
  | neq => .neq
  | lteq => .lteq
  | gteq => .gteq

def Comparison.onWords : Comparison → BitVec 32 → BitVec 32 → Bool
  | lt, a, b => a.slt b
  | gt, a, b => b.slt a
  | eq, a, b => a == b
  | neq, a, b => a != b
  | lteq, a, b => a.sle b
  | gteq, a, b => b.sle a

theorem Comparison.applyInts_toInt (c : Comparison) (a b : BitVec 32) :
    c.operator.applyInts a.toInt b.toInt = .ok (.bool (c.onWords a b)) := by
  cases c with
  | lt | gt => simp [operator, onWords, Operator.applyInts, BitVec.slt_eq_decide]
  | lteq | gteq => simp [operator, onWords, Operator.applyInts, BitVec.sle_eq_decide]
  | eq | neq =>
    have heq : (a == b) = decide (a.toInt = b.toInt) := by
      rw [Bool.eq_iff_iff]
      simp [BitVec.toInt_inj]
    simp [operator, onWords, Operator.applyInts, bne, heq]

inductive Expr
  | term (t : Term)
  | compare (c : Comparison) (l r : Term)
deriving DecidableEq, Repr

namespace Expr

def node : Expr → Node
  | term t => t.node
  | compare c l r => .infixOp c.operator l.node r.node

def names : Expr → List String
  | term t => t.names
  | compare _ l r => l.names ++ r.names

def divisions : Expr → List (Term × Term)
  | term t => t.divisions
  | compare _ l r => l.divisions ++ r.divisions

def value (values : String → Int) : Expr → Value
  | term t => word (t.value values)
  | compare c l r => .bool (c.onWords (l.value values) (r.value values))

def outcome (values : String → Int) (e : Expr) : Except EvalError Value :=
  guarded values e.divisions (e.value values)

section
variable {settings : Settings} {scope : ScopeId} {s : State} {values : String → Int}

theorem settles {e : Expr} (h : ∀ x ∈ e.names, Stands s scope values x) :
    Settles settings scope s e.node (e.outcome values) := by
  cases e with
  | term t =>
    have houtcome : (term t).outcome values = (t.outcome values).map word := by
      unfold outcome Term.outcome guarded
      rw [divisions]
      cases fault? values t.divisions <;> rfl
    rw [houtcome]
    exact settles_term h
  | compare c l r =>
    have hright : (do let b ← r.outcome values; .ok (.bool (c.onWords (l.value values) b))) =
        guarded values (r.divisions ++ []) ((compare c l r).value values) := guarded_bind rfl
    have houtcome : (do let a ← l.outcome values; let b ← r.outcome values; .ok (.bool (c.onWords a b))) =
        guarded values (l.divisions ++ (r.divisions ++ [])) ((compare c l r).value values) := guarded_bind hright
    rw [List.append_nil] at houtcome
    rw [outcome, divisions, ← houtcome]
    refine settles_infixOp c.applyInts_toInt (settles_term fun x hx => h x ?_) (settles_term fun x hx => h x ?_)
    · exact List.mem_append_left _ hx
    · exact List.mem_append_right _ hx

end

end Expr

/-- If names stand for words, an expression evaluates to what a machine of 32 bits computes for it, unless there is a
division whose divisor comes to zero; then the first of these in the order of evaluation fails with its two operands.  The
state stays as it is.  Only where there are fewer frames left than the expression takes may the evaluation end at that. -/
theorem integers_compute_as_words (settings : Settings) {scope : ScopeId} {s : State} {values : String → Int} {e : Expr}
    (h : ∀ x ∈ e.names, Stands s scope values x) :
    (∀ frames, e.node.frames settings.stack.evaluating ≤ frames → eval settings frames scope e.node s =
      (match fault? values e.divisions with
        | none => .ok (e.value values)
        | some err => .error (.failed err), s)) ∧
    (∀ frames, frames < e.node.frames settings.stack.evaluating →
      eval settings frames scope e.node s = (.error .tooDeep, s) ∨ eval settings frames scope e.node s =
        (match fault? values e.divisions with
          | none => .ok (e.value values)
          | some err => .error (.failed err), s)) ∧
    (e.node.frames settings.stack.evaluating ≤ settings.frames → run settings scope e.node s =
      (match fault? values e.divisions with
        | none => .value (e.value values)
        | some err => .value (.error err), s)) := by
  have hsettles : Settles settings scope s e.node (e.outcome values) := Expr.settles h
  have houtcome : ofExcept (e.outcome values) s = (match fault? values e.divisions with
      | none => .ok (e.value values)
      | some err => .error (.failed err), s) := by
    unfold Expr.outcome guarded
    cases fault? values e.divisions <;> rfl
  have hdeep (frames : Nat) (hle : e.node.frames settings.stack.evaluating ≤ frames) :
      eval settings frames scope e.node s = ofExcept (e.outcome values) s := by
    rcases hsettles frames with heval | ⟨hlt, -⟩
    · exact heval
    · exact absurd hle (Nat.not_le_of_lt hlt)
  refine ⟨fun frames hle => (hdeep frames hle).trans houtcome, fun frames _ => ?_, fun hle => ?_⟩
  · rcases hsettles frames with heval | ⟨-, hstop⟩
    · exact .inr (heval.trans houtcome)
    · exact .inl hstop
  · rw [run, hdeep _ hle, houtcome]
    cases fault? values e.divisions with
    | some err => rfl
    | none => cases e <;> rfl

def leastByMinusOne : Expr :=
  .compare .lt (.binary .add (.binary .div (.name "x") (.neg (.literal 1))) (.literal 2147483647)) (.literal 0)

/-- A division by a quotient that has itself zero for its divisor, and fails first. -/
def zeroInDivisor : Expr := .term (.binary .div (.literal 1) (.binary .div (.name "x") (.literal 0)))

def leastNamed : State := State.initial.put 0 "x" (.int (-2147483648))

theorem stands_x_leastNamed : Stands leastNamed 0 (fun _ => -2147483648) "x" :=
  ⟨by decide, ⟨by decide, by decide⟩, by cbv⟩

theorem leastByMinusOne_computes : (∀ x ∈ leastByMinusOne.names, Stands leastNamed 0 (fun _ => -2147483648) x) ∧
    run ⟨.null, .usual, 100, 9⟩ 0 leastByMinusOne.node leastNamed = (.value (.bool true), leastNamed) ∧
    run ⟨.null, .usual, 100, 9⟩ 0 zeroInDivisor.node leastNamed =
      (.value (.error (.divisionByZero (-2147483648) 0)), leastNamed) := by
  have hleast (e : Expr) (he : e.names = ["x"]) : ∀ x ∈ e.names, Stands leastNamed 0 (fun _ => -2147483648) x := by
    intro x hx
    rw [he, List.mem_singleton] at hx
    exact hx ▸ stands_x_leastNamed
  refine ⟨hleast _ rfl, ?_, ?_⟩
  · exact (integers_compute_as_words ⟨.null, .usual, 100, 9⟩ (hleast leastByMinusOne rfl)).2.2 (by cbv)
  · exact (integers_compute_as_words ⟨.null, .usual, 100, 9⟩ (hleast zeroInDivisor rfl)).2.2 (by cbv)

end Arithmetic
end Scriptlet
