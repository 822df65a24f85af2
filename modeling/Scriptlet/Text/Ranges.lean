/-! Sets of characters given as ascending lists of closed code point intervals.  `Ranges.contains` reads
a list from the left and stops at the first interval that starts above the character, so a table
answers for a low character after a few comparisons. -/
namespace Scriptlet.Text

/-- Closed intervals of code points, in ascending order and without overlap. -/
abbrev Ranges := List (Nat × Nat)

def Ranges.containsCode : Ranges → Nat → Bool
  | [], _ => false
  | (first, last) :: rest, n => first ≤ n && (n ≤ last || containsCode rest n)

def Ranges.contains (ranges : Ranges) (c : Char) : Bool := ranges.containsCode c.toNat

def Ranges.offset? : Ranges → Nat → Option Nat
  | [], _ => none
  | (first, last) :: rest, n =>
    if n < first then none else if n ≤ last then some (n - first) else offset? rest n

theorem Ranges.offset?_isSome (ranges : Ranges) (n : Nat) :
    (ranges.offset? n).isSome = ranges.containsCode n := by
  induction ranges with
  | nil => rfl
  | cons r rest ih =>
    obtain ⟨first, last⟩ := r
    by_cases h : n < first
    · simp [offset?, containsCode, h, Nat.not_le.mpr h]
    · by_cases h' : n ≤ last
      · simp [offset?, containsCode, h, h', Nat.le_of_not_lt h]
      · simp [offset?, containsCode, h, h', Nat.le_of_not_lt h, ih]

end Scriptlet.Text
