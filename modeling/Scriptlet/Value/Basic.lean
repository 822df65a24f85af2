import Scriptlet.Syntax.Node

/-! Values of running programs.  Texts, arrays and scopes are kept in a `State` and values refer to them by number,
so that two values can be the same array.  The last two forms of a value are not data: they are what a `return` or an
error amounts to when a caller asks for it as a value. -/
namespace Scriptlet

inductive ValueType
  | integer | boolean | string | array | function | builtin | returned | error | null
deriving DecidableEq, Repr

def ValueType.name : ValueType → String
  | integer => "INTEGER"
  | boolean => "BOOLEAN"
  | string => "STRING"
  | array => "ARRAY"
  | function => "FUNCTION"
  | builtin => "BUILTIN"
  | returned => "RETURN"
  | error => "ERROR"
  | null => "NULL"

inductive Builtin
  | print | len | first | rest | push | append | pop | removeLast
deriving DecidableEq, Repr

namespace Builtin

def all : List Builtin := [print, len, first, rest, push, append, pop, removeLast]

def name : Builtin → String
  | print => "print"
  | len => "len"
  | first => "first"
  | rest => "rest"
  | push => "push"
  | append => "append"
  | pop => "pop"
  | removeLast => "removeLast"

def ofName? (s : String) : Option Builtin := all.find? (·.name = s)

theorem ofName?_name (b : Builtin) : ofName? b.name = some b := by cases b <;> decide

def usage : Builtin → String
  | print => "print(x -> any, ...) -> null: prints all parameters"
  | len => "len(x -> array|string) -> integer: returns the number of elements in 'x'"
  | first => "first(x -> array|string) -> any|string: returns the first element in 'x'"
  | rest => "rest(x -> array|string) -> array|string: returns all the elements in 'x' excluded the first element"
  | push => "push(x -> array|string, y -> any) -> array|string: returns a new object with the new element 'y' " ++
      "added as first element of 'x'"
  | append => "append(x -> array|string, y -> any) -> array|string: returns a new object with the new element 'y' " ++
      "added as last element of 'x'"
  | pop => "pop(x -> array|string) -> any|string: removes the first element from 'x' and returns it"
  | removeLast => "removeLast(x -> array|string) -> any|string: removes the last element from 'x' and returns it"

end Builtin

/-- What the first item, or the rest, of an empty sequence is. -/
inductive OnEmpty
  | null
  /-- A new empty sequence of the same kind. -/
  | empty
deriving DecidableEq, Repr

def OnEmpty.name : OnEmpty → String
  | null => "null"
  | empty => "empty"

inductive SequenceKind
  | array | string
deriving DecidableEq, Repr

def SequenceKind.name : SequenceKind → String
  | array => "Array"
  | string => "String"

inductive EvalError
  | builtinName (name : String)
  | whileCondition (found : ValueType)
  | ifCondition (found : ValueType)
  | prefixOperand (op : Operator) (found : ValueType)
  | unknownPrefixOp (op : Operator) (found : ValueType)
  | infixOperands (left : ValueType) (op : Operator) (right : ValueType)
  | unknownInfixOp (left : ValueType) (op : Operator) (right : ValueType)
  | divisionByZero (left right : Int)
  | unknownPostfixOp (operand : Node) (op : Operator)
  | postfixTarget (op : Operator) (operand : Node)
  | postfixUndeclared (op : Operator) (name : String)
  | postfixNotInteger (op : Operator) (name : String)
  | notInvocable (found : ValueType)
  | argumentCount (formal actual : Nat)
  | notIndexable (found : ValueType)
  | badIndex (found : ValueType)
  | indexBeyond (kind : SequenceKind) (length : Nat) (position : Int)
  | reverseIndexBeyond (kind : SequenceKind) (length : Nat) (position : Int)
  | unknownNode (token : Token)
  /-- A builtin got the wrong number of arguments. -/
  | arity (got : Nat) (must : String)
  /-- A builtin got an argument that holds no sequence; `which` names the argument. -/
  | notSequence (which : String) (found : ValueType)
  /-- The call stack is full. -/
  | nesting
  /-- A reference leads nowhere. -/
  | broken
  /-- An error that comes from outside, with its message. -/
  | given (message : String)
deriving Repr

def EvalError.message : EvalError → String
  | builtinName name => "Identifier '" ++ name ++ "' already used as a builtin function"
  | whileCondition found => "While statement condition must be a BOOLEAN expression, got " ++ found.name
  | ifCondition found => "Conditional expression condition must be a BOOLEAN expression, got " ++ found.name
  | prefixOperand op found => "Cannot apply prefix operator '" ++ op.symbol ++ "' to " ++ found.name
  | unknownPrefixOp op found => "Unknown prefix operator " ++ op.symbol ++ found.name
  | infixOperands left op right =>
    "Cannot solve infix expression " ++ left.name ++ " " ++ op.symbol ++ " " ++ right.name
  | unknownInfixOp left op right => "Unknown infix operator " ++ left.name ++ " " ++ op.symbol ++ " " ++ right.name
  | divisionByZero left right => "Division by zero: " ++ toString left ++ " / " ++ toString right
  | unknownPostfixOp operand op => "Unknown postfix operator " ++ operand.text ++ op.symbol
  | postfixTarget op operand => "Cannot apply postfix operator '" ++ op.symbol ++ "' to " ++ operand.text
  | postfixUndeclared op name =>
    "Cannot apply postfix operator '" ++ op.symbol ++ "' to " ++ name ++ ": not declared"
  | postfixNotInteger op name =>
    "Cannot apply postfix operator '" ++ op.symbol ++ "' to " ++ name ++ ": not an integer"
  | notInvocable found => "Cannot invoke " ++ found.name ++ ": not a FUNCTION"
  | argumentCount formal actual =>
    "Formal parameters and actual parameters differ in length (formal " ++ toString formal ++ " != actual " ++
      toString actual ++ ")"
  | notIndexable found => "Cannot index non-indexable object: " ++ found.name
  | badIndex found => "Cannot use " ++ found.name ++ " as index"
  | indexBeyond kind length position =>
    kind.name ++ " index out of bounds: max index " ++ toString ((length : Int) - 1) ++ ", got " ++ toString position
  | reverseIndexBeyond kind length position =>
    kind.name ++ " reverse index out of bounds: max reverse index -" ++ toString length ++ ", got " ++
      toString position
  | unknownNode token => "Unknown AST node: " ++ token.text
  | arity got must => "Unexpected number of arguments: got " ++ toString got ++ ", must be " ++ must
  | notSequence which found => "Unexpected type of " ++ which ++ ": expected ARRAY or STRING, got " ++ found.name
  | nesting => "Maximum recursion depth exceeded"
  | broken => "Broken reference"
  | given message => message

abbrev TextId := Nat

abbrev ArrayId := Nat

abbrev ScopeId := Nat

inductive Value
  | int (n : Int)
  | bool (b : Bool)
  | null
  | str (id : TextId)
  | arr (id : ArrayId)
  /-- A function and the scope in which it was defined. -/
  | fn (params : List String) (body : Node) (scope : ScopeId)
  | builtin (b : Builtin)
  | returned (v : Value)
  | error (e : EvalError)
deriving Repr, Inhabited

def Value.type : Value → ValueType
  | int _ => .integer
  | bool _ => .boolean
  | null => .null
  | str _ => .string
  | arr _ => .array
  | fn _ _ _ => .function
  | builtin _ => .builtin
  | returned _ => .returned
  | error _ => .error

end Scriptlet
