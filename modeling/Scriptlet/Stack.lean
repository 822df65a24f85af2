import Scriptlet.Value.Basic

/-! The call stack of the host.  Parsing, evaluating and writing a nested construct take up frames of the stack on every
level of nesting.  How many they take is told from outside, construct by construct. -/
namespace Scriptlet

inductive Parser.Site
  | letValue | returned | expression | loopCondition | loopBody
  | operand | right | group | condition | branch | body | element | argument | position
deriving DecidableEq, Repr

/-- The frames that work on nested items takes up, on top of the one frame that every item takes. -/
structure Frames (Item Site : Type) where
  /-- For an item itself. -/
  own : Item → Nat
  /-- Around a part at a site. -/
  around : Site → Nat

def Frames.flat {Item Site : Type} : Frames Item Site := ⟨fun _ => 0, fun _ => 0⟩

structure Stack where
  parsing : Frames Token Parser.Site
  /-- A site is a kind of node with the kind of the one that it has evaluated. -/
  evaluating : Frames Node.Form (Node.Form × Node.Form)
  /-- Around a text that evaluating a node makes. -/
  aroundText : Node.Form → Nat
  /-- A site is a kind of node with the kind of one right inside it. -/
  writingNodes : Frames Node.Form (Node.Form × Node.Form)
  /-- A site is the type of a value with others inside it. -/
  writingValues : Frames ValueType ValueType

def Stack.flat : Stack := ⟨.flat, .flat, fun _ => 0, .flat, .flat⟩

/-- The frames of the usual host, as far as they can be told. -/
def Stack.usual : Stack where
  parsing := {
    own := fun _ => 4
    around
      | .loopCondition => 0
      | .operand | .right | .group | .branch | .body | .position => 1
      | .letValue | .returned | .expression | .loopBody | .condition => 2
      | .element | .argument => 3 }
  evaluating := {
    own := fun _ => 3
    around
      | (.call, .block) | (.array, _) => 2
      | (.call, _) => 3
      | _ => 1 }
  aroundText := fun _ => 4
  writingNodes := ⟨fun _ => 1, fun _ => 1⟩
  writingValues := ⟨fun _ => 1, fun _ => 1⟩

def Frames.most (numbers : List Nat) : Nat := numbers.foldr max 0

def Node.frames (frames : Frames Node.Form (Node.Form × Node.Form)) (n : Node) : Nat :=
  max (frames.own n.form + 1) (Frames.most (n.children.attach.map fun ⟨child, _⟩ =>
    frames.around (n.form, child.form) + 1 + child.frames frames))
termination_by n
decreasing_by exact sizeOf_lt_of_mem_children ‹_›

end Scriptlet
