import Scriptlet.Eval.Run

/-! The builtin functions.  The number of arguments is checked first.  `push`, `append` and `rest` make new objects and
leave their argument alone; only `pop` and `removeLast` change an object.  A failed call gives an error as its value. -/
namespace Scriptlet.Builtin
open Run

inductive Holder
  | text (id : TextId) (t : String)
  | array (id : ArrayId) (vs : List Value)

def arity (got : Nat) (must : String) : Run Value := return .error (.arity got must)

def notSequence (which : String) (v : Value) : Run Value := return .error (.notSequence which v.type)

/-- Goes on with the sequence that an argument holds; an argument of another type is an error. -/
def onSequence (which : String) (v : Value) (go : Holder → Run Value) : Run Value :=
  match v with
  | .str id => do go (.text id (← string id))
  | .arr id => do go (.array id (← array id))
  | v => notSequence which v

def one (args : List Value) (go : Value → Run Value) : Run Value :=
  match args with
  | [v] => go v
  | _ => arity args.length "1"

def two (args : List Value) (go : Value → Value → Run Value) : Run Value :=
  match args with
  | [v, w] => go v w
  | _ => arity args.length "2"

section
variable (stack : Stack) (room : Nat)

/-- The text of a value as part of a longer text: a string adds its characters, without quotes. -/
def plainText : Value → Run String
  | .str id => string id
  | v => textOf stack room v

def printLine (v : Value) : Run Unit := do
  let line ← textOf stack room v
  change (·.print line)

def printAll : List Value → Run Value
  | [] => return .null
  | v :: vs => do
    printLine stack room v
    printAll vs

def length : Holder → Run Value
  | .text _ t => return .int t.length
  | .array _ vs => return .int vs.length

/-- What comes in place of an item that an empty sequence lacks, when `fresh` makes an empty one. -/
def ofEmpty (onEmpty : OnEmpty) (fresh : Run Value) : Run Value :=
  match onEmpty with
  | .null => return .null
  | .empty => fresh

def firstOf (onEmpty : OnEmpty) : Holder → Run Value
  | .text _ t =>
    match t.toList with
    | c :: _ => newText [c]
    | [] => ofEmpty onEmpty (newText [])
  | .array _ (v :: _) => return v
  | .array _ [] => ofEmpty onEmpty (newArray [])

def restOf (onEmpty : OnEmpty) : Holder → Run Value
  | .text _ t =>
    match t.toList with
    | _ :: cs => newText cs
    | [] => ofEmpty onEmpty (newText [])
  | .array _ (_ :: vs) => newArray vs
  | .array _ [] => ofEmpty onEmpty (newArray [])

def pushOn (v : Value) : Holder → Run Value
  | .text _ t => do newString ((← plainText stack room v) ++ t)
  | .array _ vs => newArray (v :: vs)

def appendTo (v : Value) : Holder → Run Value
  | .text _ t => do newString (t ++ (← plainText stack room v))
  | .array _ vs => newArray (vs ++ [v])

end

/-- Takes the first item out of a sequence.  There is none in an empty one, and the value is null. -/
def popFrom : Holder → Run Value
  | .text id t =>
    match t.toList with
    | c :: cs => do
      change (·.setText id cs)
      newText [c]
    | [] => return .null
  | .array id (v :: vs) => do
    change (·.setArray id vs)
    return v
  | .array _ [] => return .null

def removeLastFrom : Holder → Run Value
  | .text id t =>
    match t.toList.getLast? with
    | some c => do
      change (·.setText id t.toList.dropLast)
      newText [c]
    | none => return .null
  | .array id vs =>
    match vs.getLast? with
    | some v => do
      change (·.setArray id vs.dropLast)
      return v
    | none => return .null

def call (settings : Settings) (room : Nat) (b : Builtin) (args : List Value) : Run Value :=
  match b with
  | print => if args.isEmpty then arity 0 ">= 1" else printAll settings.stack room args
  | len => one args fun v => onSequence "argument" v length
  | first => one args fun v => onSequence "argument" v (firstOf settings.onEmpty)
  | rest => one args fun v => onSequence "argument" v (restOf settings.onEmpty)
  | push => two args fun v w => onSequence "first argument" v (pushOn settings.stack room w)
  | append => two args fun v w => onSequence "first argument" v (appendTo settings.stack room w)
  | pop => one args fun v => onSequence "first argument" v popFrom
  | removeLast => one args fun v => onSequence "first argument" v removeLastFrom

end Scriptlet.Builtin
