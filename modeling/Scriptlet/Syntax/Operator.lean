import Scriptlet.Token.Basic

/-! Operators of the language, and how strongly each binds.  A symbol such as `-` is one operator whether it
stands before one operand or between two. -/
namespace Scriptlet

inductive Operator
  | plus | minus | asterisk | slash | neg | lt | gt | eq | neq | lteq | gteq | increment | decrement
deriving DecidableEq, Repr

namespace Operator

def symbol : Operator → String
  | plus => "+"
  | minus => "-"
  | asterisk => "*"
  | slash => "/"
  | neg => "!"
  | lt => "<"
  | gt => ">"
  | eq => "=="
  | neq => "!="
  | lteq => "<="
  | gteq => ">="
  | increment => "++"
  | decrement => "--"

end Operator

inductive Strength
  | lowest | comparison | summation | multiplication | leading | postfixed | call | index
deriving DecidableEq, Repr

namespace Strength

def rank : Strength → Nat
  | lowest => 0
  | comparison => 1
  | summation => 2
  | multiplication => 3
  | leading => 4
  | postfixed => 5
  | call => 6
  | index => 7

instance : LT Strength := ⟨fun a b => a.rank < b.rank⟩

instance (a b : Strength) : Decidable (a < b) := inferInstanceAs (Decidable (a.rank < b.rank))

end Strength

/-- What can carry on an expression that is complete by itself. -/
inductive Suffix
  /-- An operator with a second operand after it. -/
  | binary (op : Operator) (strength : Strength)
  /-- An operator that closes the expression. -/
  | closing (op : Operator)
  | call
  | index
deriving DecidableEq, Repr

namespace Suffix

def strength : Suffix → Strength
  | binary _ s => s
  | closing _ => .postfixed
  | call => .call
  | index => .index

def ofKind? : Kind → Option Suffix
  | .lt => some (binary .lt .comparison)
  | .gt => some (binary .gt .comparison)
  | .eq => some (binary .eq .comparison)
  | .neq => some (binary .neq .comparison)
  | .lteq => some (binary .lteq .comparison)
  | .gteq => some (binary .gteq .comparison)
  | .plus => some (binary .plus .summation)
  | .minus => some (binary .minus .summation)
  | .asterisk => some (binary .asterisk .multiplication)
  | .slash => some (binary .slash .multiplication)
  | .increment => some (closing .increment)
  | .decrement => some (closing .decrement)
  | .lparen => some call
  | .lsquare => some index
  | _ => none

end Suffix

/-- How strongly a token ties the expression before it to what follows; `lowest` if it does not. -/
def Strength.ofKind (kind : Kind) : Strength := (Suffix.ofKind? kind).elim .lowest Suffix.strength

end Scriptlet
