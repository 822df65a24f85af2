import Mathlib
import Scriptlet.State

/-! Data apart from the state that holds it.  A value of a program refers to strings and arrays by number; a `Datum` is the
tree that one finds by following these numbers.  The text of a value is the text of that tree. -/
namespace Scriptlet

inductive Datum
  | int (n : Int)
  | bool (b : Bool)
  | null
  | str (t : String)
  | arr (items : List Datum)

namespace Datum

def height : Datum → Nat
  | arr items => (items.map height).foldr max 0 + 1
  | _ => 0

def text : Datum → String
  | int n => toString n
  | bool b => if b then "true" else "false"
  | null => "null"
  | str t => "\"" ++ t ++ "\""
  | arr items => "[" ++ ",".intercalate (items.map text) ++ "]"

/-- Data that can be written as program texts: no integer is the least one, and no string has a quote in it. -/
inductive Plain : Datum → Prop
  | int {n} (hmin : -2147483648 < n) (hmax : n < 2147483648) : Plain (int n)
  | bool {b} : Plain (bool b)
  | null : Plain null
  | str {t : String} (ht : '"' ∉ t.toList) : Plain (str t)
  | arr {items} (h : ∀ d ∈ items, Plain d) : Plain (arr items)

theorem exists_of_le_foldr_max {k : Nat} {ks : List Nat} (hpos : 0 < k) (h : k ≤ ks.foldr max 0) :
    ∃ j ∈ ks, k ≤ j := by
  by_contra hnone
  have hall : ∀ j ∈ ks, j ≤ k - 1 := fun j hj => Nat.le_sub_one_of_lt (Nat.not_le.mp fun hk => hnone ⟨j, hj, hk⟩)
  have hmax : ks.foldr max 0 ≤ k - 1 := List.max_le_of_forall_le ks (k - 1) hall
  omega

theorem height_lt {d : Datum} {items : List Datum} (h : d ∈ items) : d.height < (arr items).height := by
  rw [height]
  exact Nat.lt_succ_of_le (List.le_max_of_le' 0 (List.mem_map_of_mem h) (Nat.le_refl _))

end Datum

namespace State
variable {s s' : State} {v : Value} {d d' : Datum}

inductive Shows (s : State) : Value → Datum → Prop
  | int {n} : Shows s (.int n) (.int n)
  | bool {b} : Shows s (.bool b) (.bool b)
  | null : Shows s .null .null
  | str {id t} (h : s.strings[id]? = some t) : Shows s (.str id) (.str t)
  | arr {id vs items} (h : s.arrays[id]? = some vs) (hlength : vs.length = items.length)
      (hitems : ∀ {v d}, (v, d) ∈ vs.zip items → Shows s v d) : Shows s (.arr id) (.arr items)

namespace Shows

theorem mem_zip {vs : List Value} {items : List Datum} {i : Nat} (hvs : i < vs.length) (hitems : i < items.length) :
    (vs[i], items[i]) ∈ vs.zip items :=
  List.mem_iff_getElem.mpr ⟨i, by simp [hvs, hitems], by simp⟩

theorem of_forall₂ {id : ArrayId} {vs : List Value} {items : List Datum} (h : s.arrays[id]? = some vs)
    (hitems : List.Forall₂ s.Shows vs items) : s.Shows (.arr id) (.arr items) := by
  obtain ⟨hlength, hzip⟩ := List.forall₂_iff_zip.mp hitems
  exact .arr h hlength hzip

theorem unique (h : s.Shows v d) (h' : s.Shows v d') : d = d' := by
  induction h generalizing d' with
  | int | bool | null => cases h'; rfl
  | str h =>
    cases h' with
    | str h' => rw [Option.some.inj (h.symm.trans h')]
  | @arr id vs items h hlength _ ih =>
    cases h' with
    | @arr _ vs' items' h' hlength' hitems' =>
      obtain rfl := Option.some.inj (h.symm.trans h')
      refine congrArg Datum.arr (List.ext_getElem (hlength.symm.trans hlength') fun i hi hi' => ?_)
      have hvs : i < vs.length := hlength ▸ hi
      exact ih (mem_zip hvs hi) (hitems' (mem_zip hvs hi'))

/-- Inside a value lie arrays of all heights up to its own. -/
theorem exists_arr (h : s.Shows v d) {k : Nat} (hpos : 0 < k) (hk : k ≤ d.height) :
    ∃ id d', id < s.arrays.size ∧ s.Shows (.arr id) d' ∧ d'.height = k := by
  induction h with
  | int | bool | null | str _ => exact absurd hk (by simp [Datum.height, Nat.ne_of_gt hpos])
  | @arr id vs items h hlength hitems ih =>
    rcases Nat.lt_or_eq_of_le hk with hlt | rfl
    · rw [Datum.height] at hlt
      obtain ⟨j, hj, hkj⟩ := Datum.exists_of_le_foldr_max hpos (Nat.le_of_lt_succ hlt)
      obtain ⟨d, hd, rfl⟩ := List.mem_map.mp hj
      obtain ⟨i, hi, rfl⟩ := List.mem_iff_getElem.mp hd
      have hvs : i < vs.length := hlength ▸ hi
      exact ih (mem_zip hvs hi) hkj
    · exact ⟨id, _, (Array.getElem?_eq_some_iff.mp h).1, .arr h hlength hitems, rfl⟩

/-- No value is higher than there are arrays: those inside it differ in their heights. -/
theorem height_le (h : s.Shows v d) : d.height ≤ s.arrays.size := by
  have harr (k : Fin d.height) : ∃ id d', id < s.arrays.size ∧ s.Shows (.arr id) d' ∧ d'.height = k + 1 :=
    h.exists_arr (Nat.succ_pos _) k.isLt
  choose id datum hlt hshows hheight using harr
  have hinj : Function.Injective fun k => (⟨id k, hlt k⟩ : Fin s.arrays.size) := by
    intro j k heq
    have hid : id j = id k := congrArg Fin.val heq
    have hdatum : datum j = datum k := (hshows j).unique (hid ▸ hshows k)
    have hval : (j : Nat) + 1 = k + 1 := by rw [← hheight j, ← hheight k, hdatum]
    exact Fin.ext (Nat.succ.inj hval)
  simpa using Fintype.card_le_of_injective _ hinj

theorem mapM_eq {f : Value → Option String} {g : Datum → String} {vs : List Value} {items : List Datum}
    (h : List.Forall₂ (fun v d => f v = some (g d)) vs items) : vs.mapM f = some (items.map g) := by
  induction h with
  | nil => rfl
  | cons h _ ih => simp [List.mapM_cons, h, ih]

theorem textWith_eq (h : s.Shows v d) {bound : Nat} (hbound : d.height ≤ bound) :
    v.textWith s.strText? (s.arrText? bound) = some d.text := by
  induction h generalizing bound with
  | int | bool | null => simp [Value.textWith, Datum.text]
  | str h => simp [Value.textWith, Datum.text, strText?, h]
  | @arr id vs items h hlength _ ih =>
    have hpos : 0 < (Datum.arr items).height := by
      rw [Datum.height]
      exact Nat.succ_pos _
    obtain ⟨bound, rfl⟩ := Nat.exists_eq_add_one.mpr (Nat.lt_of_lt_of_le hpos hbound)
    have hparts : vs.mapM (Value.textWith s.strText? (s.arrText? bound)) = some (items.map Datum.text) := by
      refine mapM_eq (List.forall₂_iff_zip.mpr ⟨hlength, fun {v d} hmem => ih hmem ?_⟩)
      exact Nat.le_of_lt_succ (Nat.lt_of_lt_of_le (Datum.height_lt (List.of_mem_zip hmem).2) hbound)
    simp [Value.textWith, arrText?, h, hparts, Datum.text]

theorem text?_eq (h : s.Shows v d) : s.text? v = some d.text := h.textWith_eq h.height_le

end Shows

/-- Strings and arrays may have been added, and nothing else was done. -/
structure Added (s s' : State) : Prop where
  strings {id : TextId} {t : String} : s.strings[id]? = some t → s'.strings[id]? = some t
  arrays {id : ArrayId} {vs : List Value} : s.arrays[id]? = some vs → s'.arrays[id]? = some vs
  scopes : s'.scopes = s.scopes
  printed : s'.printed = s.printed

namespace Added
variable {s'' : State}

theorem refl (s : State) : Added s s := ⟨id, id, rfl, rfl⟩

theorem trans (h : Added s s') (h' : Added s' s'') : Added s s'' where
  strings hid := h'.strings (h.strings hid)
  arrays hid := h'.arrays (h.arrays hid)
  scopes := h'.scopes.trans h.scopes
  printed := h'.printed.trans h.printed

theorem addString (s : State) (t : String) : Added s (s.addString t) where
  strings hid := by
    have hlt := (Array.getElem?_eq_some_iff.mp hid).1
    simpa [State.addString, Array.getElem?_push, Nat.ne_of_lt hlt] using hid
  arrays := id
  scopes := rfl
  printed := rfl

theorem addArray (s : State) (vs : List Value) : Added s (s.addArray vs) where
  strings := id
  arrays hid := by
    have hlt := (Array.getElem?_eq_some_iff.mp hid).1
    simpa [State.addArray, Array.getElem?_push, Nat.ne_of_lt hlt] using hid
  scopes := rfl
  printed := rfl

theorem shows (h : Added s s') (hv : s.Shows v d) : s'.Shows v d := by
  induction hv with
  | int => exact .int
  | bool => exact .bool
  | null => exact .null
  | str hid => exact .str (h.strings hid)
  | arr hid hlength _ ih => exact .arr (h.arrays hid) hlength ih

end Added
end State
end Scriptlet
