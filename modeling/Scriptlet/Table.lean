/-! Tables that keep their keys in the order in which they were first put. -/
namespace Scriptlet

abbrev Table (κ α : Type) := List (κ × α)

namespace Table
variable {κ α : Type} [DecidableEq κ]

/-- A new key goes to the end, a known one keeps its place and gets the new value. -/
def put : Table κ α → κ → α → Table κ α
  | [], k, a => [(k, a)]
  | (k', a') :: rest, k, a => if k' = k then (k, a) :: rest else (k', a') :: put rest k a

def get? : Table κ α → κ → Option α
  | [], _ => none
  | (k', a) :: rest, k => if k' = k then some a else get? rest k

def erase (t : Table κ α) (k : κ) : Table κ α := t.filter fun entry => entry.1 ≠ k

def keys (t : Table κ α) : List κ := t.map (·.1)

theorem get?_put (t : Table κ α) (k k' : κ) (a : α) :
    (t.put k a).get? k' = if k = k' then some a else t.get? k' := by
  induction t with
  | nil => simp [put, get?]
  | cons entry rest ih =>
    obtain ⟨j, b⟩ := entry
    by_cases hj : j = k
    · subst hj
      by_cases hk : j = k' <;> simp [put, get?, hk]
    · by_cases hk : j = k'
      · subst hk
        simp [put, get?, hj, Ne.symm hj]
      · simp [put, get?, hj, hk, ih]

theorem keys_put (t : Table κ α) (k : κ) (a : α) :
    (t.put k a).keys = if k ∈ t.keys then t.keys else t.keys ++ [k] := by
  induction t with
  | nil => simp [put, keys]
  | cons entry rest ih =>
    obtain ⟨j, b⟩ := entry
    by_cases hj : j = k
    · simp [put, keys, hj]
    · simp only [keys] at ih
      by_cases hm : k ∈ rest.map (·.1) <;> simp_all [put, keys, Ne.symm hj]

end Table
end Scriptlet
