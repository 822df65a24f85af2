import Scriptlet.Syntax.Operator

/-! Syntax trees and their text.  Statements and expressions are nodes of one type, since a tree handed to the
evaluator may hold any of them in any place.  The text of a tree shows every operator with its own parentheses and
forgets those that only grouped. -/
namespace Scriptlet

inductive Node
  | program (body : List Node)
  | block (body : List Node)
  | letStmt (name : String) (value : Node)
  | returnStmt (value : Node)
  | exprStmt (value : Node)
  | whileStmt (condition body : Node)
  | ident (name : String)
  | int (value : Int)
  | bool (value : Bool)
  | str (value : String)
  | prefixOp (op : Operator) (operand : Node)
  | infixOp (op : Operator) (left right : Node)
  | postfixOp (op : Operator) (operand : Node)
  | ifThen (condition yes : Node)
  | ifElse (condition yes no : Node)
  | fn (params : List String) (body : Node)
  | call (callee : Node) (args : List Node)
  | array (elements : List Node)
  | index (target position : Node)
  /-- A bare token, which means nothing on its own. -/
  | token (token : Token)
deriving Repr, Inhabited

inductive Node.Form
  | program | block | letStmt | returnStmt | exprStmt | whileStmt | ident | int | bool | str
  | prefixOp | infixOp | postfixOp | ifThen | ifElse | fn | call | array | index | token
deriving DecidableEq, Repr

namespace Node

def form : Node → Form
  | program _ => .program
  | block _ => .block
  | letStmt _ _ => .letStmt
  | returnStmt _ => .returnStmt
  | exprStmt _ => .exprStmt
  | whileStmt _ _ => .whileStmt
  | ident _ => .ident
  | int _ => .int
  | bool _ => .bool
  | str _ => .str
  | prefixOp _ _ => .prefixOp
  | infixOp _ _ _ => .infixOp
  | postfixOp _ _ => .postfixOp
  | ifThen _ _ => .ifThen
  | ifElse _ _ _ => .ifElse
  | fn _ _ => .fn
  | call _ _ => .call
  | array _ => .array
  | index _ _ => .index
  | token _ => .token

def isCallable : Node → Bool
  | ident _ | call _ _ | index _ _ | fn _ _ => true
  | _ => false

def isIndexable : Node → Bool
  | ident _ | call _ _ | index _ _ | array _ | str _ => true
  | _ => false

def children : Node → List Node
  | program body | block body => body
  | letStmt _ e | returnStmt e | exprStmt e | prefixOp _ e | postfixOp _ e | fn _ e => [e]
  | whileStmt c e | ifThen c e => [c, e]
  | infixOp _ l r => [l, r]
  | ifElse c y n => [c, y, n]
  | call f args => f :: args
  | array es => es
  | index t i => [t, i]
  | ident _ | int _ | bool _ | str _ | token _ => []

theorem sizeOf_lt_of_mem_children {n child : Node} (h : child ∈ n.children) : sizeOf child < sizeOf n := by
  cases n with
  | program ns | block ns | array ns =>
    have hlt : sizeOf child < sizeOf ns := List.sizeOf_lt_of_mem h
    simp only [program.sizeOf_spec, block.sizeOf_spec, array.sizeOf_spec]
    omega
  | call f args =>
    rcases List.mem_cons.mp h with rfl | h
    · simp only [call.sizeOf_spec]
      omega
    · have hlt := List.sizeOf_lt_of_mem h
      simp only [call.sizeOf_spec]
      omega
  | _ => revert child; simp [children] <;> omega

mutual

def text : Node → String
  | program body => "\x7b\n" ++ String.join ((texts body).map fun line => "\t" ++ line ++ "\n") ++ "\x7d"
  | block body => "\x7b " ++ " ; ".intercalate (texts body) ++ " \x7d"
  | letStmt name value => "(" ++ name ++ " = " ++ text value ++ ")"
  | returnStmt value => "(return " ++ text value ++ ")"
  | exprStmt value => "(" ++ text value ++ ")"
  | whileStmt condition body => "while (" ++ text condition ++ ") " ++ text body
  | ident name => name
  | int value => toString value
  | bool value => if value then "true" else "false"
  | str value => "\"" ++ value ++ "\""
  | prefixOp op operand => "(" ++ op.symbol ++ text operand ++ ")"
  | infixOp op left right => "(" ++ text left ++ " " ++ op.symbol ++ " " ++ text right ++ ")"
  | postfixOp op operand => "(" ++ text operand ++ op.symbol ++ ")"
  | ifThen condition yes => "if (" ++ text condition ++ ") " ++ text yes
  | ifElse condition yes no => "if (" ++ text condition ++ ") " ++ text yes ++ " else " ++ text no
  | fn params body => "fn(" ++ ",".intercalate params ++ ") " ++ text body
  | call callee args => text callee ++ "(" ++ ",".intercalate (texts args) ++ ")"
  | array elements => "[" ++ ",".intercalate (texts elements) ++ "]"
  | index target position => text target ++ "[" ++ text position ++ "]"
  | token t => t.text

def texts : List Node → List String
  | [] => []
  | node :: rest => text node :: texts rest

end

@[simp] theorem texts_eq_map (nodes : List Node) : texts nodes = nodes.map text := by
  induction nodes with
  | nil => rfl
  | cons node rest ih => simp [texts, ih]

end Node
end Scriptlet
