import Scriptlet.State

/-! Steps of an evaluation.  A step takes a state to a state and either gives a result or stops everything around it
up to whoever deals with that kind of stop. -/
namespace Scriptlet

structure Settings where
  onEmpty : OnEmpty
  stack : Stack
  /-- How many frames of the call stack are left. -/
  frames : Nat
  /-- For how many rounds a loop may run before someone interrupts the program. -/
  patience : Nat

inductive Stop
  /-- A `return` on its way out to the function call or program around it. -/
  | returned (v : Value)
  | failed (e : EvalError)
  /-- The call stack is full. -/
  | tooDeep
  /-- Someone interrupts the program. -/
  | interrupted
  /-- A reference leads nowhere. -/
  | broken
deriving Repr

def Run (α : Type) : Type := State → Except Stop α × State

namespace Run

@[always_inline, inline]
protected def bind {α β : Type} (r : Run α) (f : α → Run β) : Run β := fun s =>
  match r s with
  | (.ok a, s') => f a s'
  | (.error stop, s') => (.error stop, s')

instance : Monad Run where
  pure a := fun s => (.ok a, s)
  bind := Run.bind

def stop {α : Type} (why : Stop) : Run α := fun s => (.error why, s)

def fail {α : Type} (e : EvalError) : Run α := stop (.failed e)

def look {α : Type} (f : State → α) : Run α := fun s => (.ok (f s), s)

/-- The result of a look that must find something. -/
def find {α : Type} (f : State → Option α) : Run α := fun s =>
  match f s with
  | some a => (.ok a, s)
  | none => (.error .broken, s)

def change (f : State → State) : Run Unit := fun s => (.ok (), f s)

/-- A value for use as data; one that is not data stops the evaluation instead. -/
def use : Value → Run Value
  | .returned v => stop (.returned v)
  | .error e => fail e
  | v => pure v

/-- Ends a `return` that comes out of a step: its value is the step's result. -/
def endReturn (r : Run Value) : Run Value := fun s =>
  match r s with
  | (.error (.returned v), s') => use v s'
  | done => done

def newString (t : String) : Run Value := fun s => (.ok (.str s.strings.size), s.addString t)

def newText (cs : List Char) : Run Value := newString (String.ofList cs)

def newArray (vs : List Value) : Run Value := fun s => (.ok (.arr s.arrays.size), s.addArray vs)

def newScope (scope : Scope) : Run ScopeId := fun s => (.ok s.scopes.size, s.addScope scope)

def string (id : TextId) : Run String := find (·.strings[id]?)

def text (id : TextId) : Run (List Char) := find fun s => s.strings[id]?.map String.toList

def array (id : ArrayId) : Run (List Value) := find (·.arrays[id]?)

def makeText (room frames : Nat) (t : String) : Run String := if frames ≤ room then pure t else stop .tooDeep

def textOf (stack : Stack) (room : Nat) (v : Value) : Run String := do
  makeText room (← find (·.frames? stack v)) (← find (·.text? v))

def bindName (scope : ScopeId) (name : String) (v : Value) : Run Unit := do
  let _ ← find (·.scopes[scope]?)
  change (·.put scope name v)

/-- Repeats `body` as long as `test` holds, and is interrupted after `bound` rounds. -/
def repeatWhile (test : Run Bool) (body : Run Value) : (bound : Nat) → State → Except Stop Value × State
  | 0, s => (.error .interrupted, s)
  | bound + 1, s =>
    match test s with
    | (.ok true, s₁) =>
      match body s₁ with
      | (.ok _, s₂) => repeatWhile test body bound s₂
      | (.error stop, s₂) => (.error stop, s₂)
    | (.ok false, s₁) => (.ok .null, s₁)
    | (.error stop, s₁) => (.error stop, s₁)

def each {ι : Type} (f : ι → Run Value) : List ι → Run (List Value)
  | [] => pure []
  | item :: rest => do
    let v ← f item
    let vs ← each f rest
    return v :: vs

/-- Runs the steps for each item in order and gives the last value, or `last` if there is none. -/
def inOrder {ι : Type} (f : ι → Run Value) : (last : Value) → List ι → Run Value
  | last, [] => pure last
  | _, item :: rest => do
    let v ← f item
    inOrder f v rest

end Run
end Scriptlet
