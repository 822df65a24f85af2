import Scriptlet.Value.Basic

/-! What operators make of values.  Integers are those of 32 bits in two's complement; results outside of them
wrap around. -/
namespace Scriptlet

/-- The 32-bit integer that equals `n` modulo `2 ^ 32`. -/
def wrap (n : Int) : Int := (n + 2147483648) % 4294967296 - 2147483648

theorem wrap_eq_bmod (n : Int) : wrap n = n.bmod 4294967296 := by
  rw [wrap, Int.bmod_def]
  omega

theorem wrap_mem (n : Int) : -2147483648 ≤ wrap n ∧ wrap n < 2147483648 := by
  unfold wrap
  omega

/-- Division drops the fraction: the quotient of the absolute values, with its sign. -/
def quotient (a b : Int) : Int :=
  let q := (a.natAbs / b.natAbs : Nat)
  if decide (a < 0) = decide (b < 0) then q else -q

theorem quotient_eq_tdiv (a b : Int) : quotient a b = a.tdiv b := by
  have hpos (n : Nat) : ¬((n : Int) < 0) := Int.not_lt.mpr (Int.natCast_nonneg n)
  cases a <;> cases b <;> simp [quotient, Int.tdiv, Int.natAbs, hpos]

namespace Operator

def applyPrefix (op : Operator) (operand : Value) : Except EvalError Value :=
  match op, operand with
  | minus, .int n => .ok (.int (wrap (-n)))
  | neg, .bool b => .ok (.bool !b)
  | minus, v => .error (.prefixOperand minus v.type)
  | neg, v => .error (.prefixOperand neg v.type)
  | op, v => .error (.unknownPrefixOp op v.type)

def applyInts (op : Operator) (a b : Int) : Except EvalError Value :=
  match op with
  | lt => .ok (.bool (a < b))
  | gt => .ok (.bool (b < a))
  | eq => .ok (.bool (a = b))
  | neq => .ok (.bool (a ≠ b))
  | lteq => .ok (.bool (a ≤ b))
  | gteq => .ok (.bool (b ≤ a))
  | plus => .ok (.int (wrap (a + b)))
  | minus => .ok (.int (wrap (a - b)))
  | asterisk => .ok (.int (wrap (a * b)))
  | slash => if b = 0 then .error (.divisionByZero a b) else .ok (.int (wrap (quotient a b)))
  | neg | increment | decrement => .error (.unknownInfixOp .integer op .integer)

def applyBools (op : Operator) (a b : Bool) : Except EvalError Value :=
  match op with
  | eq => .ok (.bool (a = b))
  | neq => .ok (.bool (a ≠ b))
  | _ => .error (.unknownInfixOp .boolean op .boolean)

def applyInfix (op : Operator) (left right : Value) : Except EvalError Value :=
  match left, right with
  | .int a, .int b => op.applyInts a b
  | .bool a, .bool b => op.applyBools a b
  | _, _ => .error (.infixOperands left.type op right.type)

def postfixStep? : Operator → Option Int
  | increment => some 1
  | decrement => some (-1)
  | _ => none

end Operator
end Scriptlet
