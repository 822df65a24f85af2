import Scriptlet.Syntax.Node

/-! What lies inside a syntax tree. -/
namespace Scriptlet

namespace Node

inductive Inside (n : Node) : Node → Prop
  | refl : Inside n n
  | child {m c : Node} (h : Inside n m) (hc : c ∈ m.children) : Inside n c

theorem Inside.head {n c m : Node} (hc : c ∈ n.children) (h : c.Inside m) : n.Inside m := by
  induction h with
  | refl => exact .child .refl hc
  | child _ hm ih => exact .child ih hm

inductive Everywhere (p : Node → Prop) : Node → Prop
  | intro {n : Node} (here : p n) (inside : ∀ c ∈ n.children, Everywhere p c) : Everywhere p n

theorem Everywhere.here {p : Node → Prop} {n : Node} (h : n.Everywhere p) : p n := by
  cases h with
  | intro here _ => exact here

theorem Everywhere.child {p : Node → Prop} {n c : Node} (h : n.Everywhere p) (hc : c ∈ n.children) :
    c.Everywhere p := by
  cases h with
  | intro _ inside => exact inside c hc

end Node
end Scriptlet
