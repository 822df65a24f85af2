import Scriptlet.Eval.Run

/-! Selecting an item of a sequence by its place: from 0 on at the front, from -1 down at the back. -/
namespace Scriptlet.Run

/-- The item at a place that the caller has found to exist. -/
def itemAt {α : Type} (items : List α) (place : Nat) : Run α := find fun _ => items[place]?

def select {α : Type} (kind : SequenceKind) (items : List α) (position : Int) : Run α :=
  if (items.length : Int) ≤ position then fail (.indexBeyond kind items.length position)
  else if position < 0 then
    if (items.length : Int) < -position then fail (.reverseIndexBeyond kind items.length position)
    else itemAt items.reverse (-position - 1).toNat
  else itemAt items position.toNat

end Scriptlet.Run
