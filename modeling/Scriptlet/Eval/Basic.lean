import Scriptlet.Eval.Arithmetic
import Scriptlet.Eval.Builtin
import Scriptlet.Eval.Sequence

/-! Evaluation of syntax trees.  A node evaluates its parts one nesting level further in; `eval` ties that knot over a
call stack, of which rounds of a loop take up no more than one. -/
namespace Scriptlet

namespace Eval
open Run

def ofExcept {α : Type} : Except EvalError α → Run α
  | .ok a => pure a
  | .error e => fail e

def truth (blame : ValueType → EvalError) : Value → Run Bool
  | .bool b => pure b
  | v => fail (blame v.type)

section
variable (settings : Settings) (room : Nat) (inner : ScopeId → Node → Run Value) (scope : ScopeId)

def letStmt (name : String) (value : Node) : Run Value := do
  let v ← inner scope value
  if (Builtin.ofName? name).isSome then
    fail (.builtinName name)
  else
    bindName scope name v
    return .null

def returnStmt (value : Node) : Run Value := do
  let v ← inner scope value
  stop (.returned v)

def whileStmt (condition body : Node) : Run Value :=
  repeatWhile (do truth .whileCondition (← inner scope condition)) (inner scope body) settings.patience

/-- Builtin functions come before all bindings. -/
def ident (name : String) : Run Value :=
  match Builtin.ofName? name with
  | some b => pure (.builtin b)
  | none => do use (← look (·.lookup scope name))

def prefixOp (op : Operator) (operand : Node) : Run Value := do
  let v ← inner scope operand
  ofExcept (op.applyPrefix v)

def infixOp (op : Operator) (left right : Node) : Run Value := do
  let v ← inner scope left
  let w ← inner scope right
  ofExcept (op.applyInfix v w)

/-- Writes a node for the error about it. -/
def blame (n : Node) (e : EvalError) : Run Value := do
  let _ ← makeText room (n.frames settings.stack.writingNodes) n.text
  fail e

/-- Reads a variable wherever it is bound and binds it here to one more or one less. -/
def postfixOp (op : Operator) (operand : Node) : Run Value :=
  match op.postfixStep? with
  | none => blame settings room operand (.unknownPostfixOp operand op)
  | some step =>
    match operand with
    | .ident name => do
      match ← look (·.lookup scope name) with
      | .int n =>
        bindName scope name (.int (wrap (n + step)))
        return .null
      | .null => fail (.postfixUndeclared op name)
      | _ => fail (.postfixNotInteger op name)
    | _ => blame settings room operand (.postfixTarget op operand)

def ifThen (condition yes : Node) : Run Value := do
  if ← truth .ifCondition (← inner scope condition) then
    inner scope yes
  else
    return .null

def ifElse (condition yes no : Node) : Run Value := do
  if ← truth .ifCondition (← inner scope condition) then
    inner scope yes
  else
    inner scope no

/-- The scope of a call: the parameters with their values, inside the scope of the function's definition.  Of two
parameters of one name the later counts. -/
def localScope (captured : ScopeId) (params : List String) (args : List Value) : Scope :=
  ⟨some captured, (params.zip args).foldl (fun bindings (name, v) => bindings.put name v) []⟩

def callFunction (params : List String) (body : Node) (captured : ScopeId) (args : List Node) : Run Value := do
  if params.length ≠ args.length then
    fail (.argumentCount params.length args.length)
  else
    let vs ← each (inner scope) args
    let callScope ← newScope (localScope captured params vs)
    endReturn (inner callScope body)

def call (callee : Node) (args : List Node) : Run Value := do
  match ← inner scope callee with
  | .builtin b => do
    let vs ← each (inner scope) args
    use (← b.call settings room vs)
  | .fn params body captured => callFunction inner scope params body captured args
  | v => fail (.notInvocable v.type)

def asPosition : Value → Run Int
  | .int n => pure n
  | v => fail (.badIndex v.type)

/-- The items of an array are looked at once the position is known, those of a string before it is evaluated. -/
def index (target position : Node) : Run Value := do
  match ← inner scope target with
  | .arr id =>
    let n ← asPosition (← inner scope position)
    use (← select .array (← array id) n)
  | .str id =>
    let cs ← text id
    let n ← asPosition (← inner scope position)
    newText [← select .string cs n]
  | v => fail (.notIndexable v.type)

/-- Evaluates a node by its parts. -/
def node : Node → Run Value
  | .program body => endReturn (inOrder (inner scope) .null body)
  | .block body => inOrder (inner scope) .null body
  | .letStmt name value => letStmt inner scope name value
  | .returnStmt value => returnStmt inner scope value
  | .exprStmt value => inner scope value
  | .whileStmt condition body => whileStmt settings inner scope condition body
  | .ident name => ident scope name
  | .int n => pure (.int n)
  | .bool b => pure (.bool b)
  | .str t => newString t
  | .prefixOp op operand => prefixOp inner scope op operand
  | .infixOp op left right => infixOp inner scope op left right
  | .postfixOp op operand => postfixOp settings room scope op operand
  | .ifThen condition yes => ifThen inner scope condition yes
  | .ifElse condition yes no => ifElse inner scope condition yes no
  | .fn params body => pure (.fn params body scope)
  | .call callee args => call settings room inner scope callee args
  | .array elements => do newArray (← each (inner scope) elements)
  | .index target position => index inner scope target position
  | .token t => fail (.unknownNode t)

end

def framesFor (settings : Settings) (frames : Nat) (n part : Node) : Nat :=
  frames - (settings.stack.evaluating.around (n.form, part.form) + 1)

def roomFor (settings : Settings) (frames : Nat) (n : Node) : Nat := frames - settings.stack.aroundText n.form

/-- Evaluates a node with `frames` of the call stack left, if it has room. -/
def eval (settings : Settings) (frames : Nat) (scope : ScopeId) (n : Node) : Run Value :=
  if settings.stack.evaluating.own n.form < frames then
    node settings (roomFor settings frames n)
      (fun scope part => eval settings (framesFor settings frames n part) scope part) scope n
  else stop .tooDeep
termination_by frames
decreasing_by exact Nat.sub_lt (Nat.zero_lt_of_lt ‹_›) (Nat.succ_pos _)

inductive Result
  | value (v : Value)
  /-- Someone has interrupted the program. -/
  | interrupted

/-- Evaluates a node for its value alone.  A `return` that leaves the node gives its value, and a full call stack an
error. -/
def run (settings : Settings) (scope : ScopeId) (n : Node) (s : State) : Result × State :=
  match eval settings settings.frames scope n s with
  | (.ok v, s') => (.value v, s')
  | (.error (.returned v), s') => (.value v, s')
  | (.error (.failed e), s') => (.value (.error e), s')
  | (.error .tooDeep, s') => (.value (.error .nesting), s')
  | (.error .interrupted, s') => (.interrupted, s')
  | (.error .broken, s') => (.value (.error .broken), s')

end Eval
end Scriptlet
