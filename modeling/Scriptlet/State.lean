import Scriptlet.Stack
import Scriptlet.Table

/-! The state of a running program: the strings, arrays and scopes made so far and what was printed.  Nothing is ever
taken out of a state, so a number once given to an object stays its own. -/
namespace Scriptlet

/-- Names with their values, inside the scope `outer` if there is one. -/
structure Scope where
  outer : Option ScopeId
  bindings : Table String Value
deriving Repr, Inhabited

/-- What an evaluation can change.  Strings, arrays and scopes are known by their numbers and are never dropped. -/
structure State where
  strings : Array String
  arrays : Array (List Value)
  scopes : Array Scope
  printed : String
deriving Repr, Inhabited

def Value.textWith (ofStr : TextId → Option String) (ofArr : ArrayId → Option String) : Value → Option String
  | int n => some (toString n)
  | bool b => some (if b then "true" else "false")
  | null => some "null"
  | str id => ofStr id
  | arr id => ofArr id
  | fn params body _ => some ("fn (" ++ ",".intercalate params ++ ") " ++ body.text)
  | builtin b => some b.usage
  | returned v => (textWith ofStr ofArr v).map ("return " ++ ·)
  | error e => some e.message

def Value.framesWith (stack : Stack) (ofArr : ArrayId → Option Nat) : Value → Option Nat
  | arr id => ofArr id
  | fn _ body _ => some (max (stack.writingValues.own .function + 1)
      (stack.writingValues.around .function + 1 + body.frames stack.writingNodes))
  | returned v => (framesWith stack ofArr v).map fun frames =>
      max (stack.writingValues.own .returned + 1) (stack.writingValues.around .returned + 1 + frames)
  | v => some (stack.writingValues.own v.type + 1)

namespace State

def texts (s : State) : Array (List Char) := s.strings.map String.toList

def initial : State := ⟨#[], #[], #[⟨none, []⟩], ""⟩

def globalScope : ScopeId := 0

/-- The value of a name on the nearest scope, from `scope` outwards, that binds it.  An outer scope is older than
the scopes inside it, which bounds the search. -/
def find? (s : State) (scope : ScopeId) (name : String) : Option Value :=
  match s.scopes[scope]? with
  | none => none
  | some ⟨outer, bindings⟩ =>
    match bindings.get? name with
    | some v => some v
    | none =>
      match outer with
      | none => none
      | some o => if o < scope then s.find? o name else none
termination_by scope

/-- A name that no scope binds has the value null. -/
def lookup (s : State) (scope : ScopeId) (name : String) : Value := (s.find? scope name).getD .null

def bindings (s : State) (scope : ScopeId) : Table String Value := (s.scopes[scope]?.map (·.bindings)).getD []

def put (s : State) (scope : ScopeId) (name : String) (v : Value) : State :=
  { s with scopes := s.scopes.modify scope fun sc => { sc with bindings := sc.bindings.put name v } }

def addScope (s : State) (scope : Scope) : State := { s with scopes := s.scopes.push scope }

def addString (s : State) (t : String) : State := { s with strings := s.strings.push t }

def addText (s : State) (cs : List Char) : State := s.addString (String.ofList cs)

def addArray (s : State) (vs : List Value) : State := { s with arrays := s.arrays.push vs }

def setText (s : State) (id : TextId) (cs : List Char) : State :=
  { s with strings := s.strings.setIfInBounds id (String.ofList cs) }

def setArray (s : State) (id : ArrayId) (vs : List Value) : State :=
  { s with arrays := s.arrays.setIfInBounds id vs }

def print (s : State) (line : String) : State := { s with printed := s.printed ++ line ++ "\n" }

def strText? (s : State) (id : TextId) : Option String :=
  s.strings[id]?.map fun t => "\"" ++ t ++ "\""

theorem getElem?_texts (s : State) (id : TextId) : s.texts[id]? = s.strings[id]?.map String.toList :=
  Array.getElem?_map

theorem strings_eq_of_texts_eq {s s' : State} (h : s.texts = s'.texts) : s.strings = s'.strings :=
  Array.map_inj_right (fun _ _ => String.toList_inj.mp) |>.mp h

theorem size_texts (s : State) : s.texts.size = s.strings.size := Array.size_map

@[simp] theorem texts_addString (s : State) (t : String) : (s.addString t).texts = s.texts.push t.toList :=
  Array.map_push

@[simp] theorem texts_addText (s : State) (cs : List Char) : (s.addText cs).texts = s.texts.push cs := by simp [addText]

@[simp] theorem texts_setText (s : State) (id : TextId) (cs : List Char) :
    (s.setText id cs).texts = s.texts.setIfInBounds id cs := by simp [setText, texts]

/-- The text of an array inside which arrays lie at most `bound` deep. -/
def arrText? (s : State) : (bound : Nat) → ArrayId → Option String
  | 0, _ => none
  | bound + 1, id => do
    let parts ← (← s.arrays[id]?).mapM (Value.textWith s.strText? (s.arrText? bound))
    return "[" ++ ",".intercalate parts ++ "]"

/-- The text of a value.  Arrays that do not contain themselves lie less deep than there are arrays. -/
def text? (s : State) (v : Value) : Option String := v.textWith s.strText? (s.arrText? s.arrays.size)

def arrFrames? (s : State) (stack : Stack) : (bound : Nat) → ArrayId → Option Nat
  | 0, _ => none
  | bound + 1, id => do
    let parts ← (← s.arrays[id]?).mapM (Value.framesWith stack (s.arrFrames? stack bound))
    return max (stack.writingValues.own .array + 1)
      (Frames.most (parts.map (stack.writingValues.around .array + 1 + ·)))

def frames? (s : State) (stack : Stack) (v : Value) : Option Nat :=
  v.framesWith stack (s.arrFrames? stack s.arrays.size)

theorem arrFrames?_eq_of_arrays_eq {s s' : State} (h : s'.arrays = s.arrays) (stack : Stack) (bound : Nat) :
    s'.arrFrames? stack bound = s.arrFrames? stack bound := by
  induction bound with
  | zero => rfl
  | succ bound ih =>
    funext id
    rw [arrFrames?, arrFrames?, ih, h]

theorem frames?_eq_of_arrays_eq {s s' : State} (h : s'.arrays = s.arrays) (stack : Stack) (v : Value) :
    s'.frames? stack v = s.frames? stack v := by
  rw [frames?, frames?, arrFrames?_eq_of_arrays_eq h, h]

end State
end Scriptlet
