import Mathlib.Data.List.Perm.Subperm
import Scriptlet.Table

/-! What becomes of the keys and entries of a table.  A key keeps the place at which it was first put. -/
namespace Scriptlet
namespace Table
variable {κ α : Type} [DecidableEq κ] {t : Table κ α} {k : κ} {a : α} {entry : κ × α}

theorem mem_of_get?_eq_some (h : t.get? k = some a) : (k, a) ∈ t := by
  induction t with
  | nil => cases h
  | cons first rest ih =>
    obtain ⟨j, b⟩ := first
    by_cases hj : j = k
    · simp only [get?, hj, if_true, Option.some.injEq] at h
      simp [hj, h]
    · simp only [get?, hj, if_false] at h
      exact List.mem_cons_of_mem _ (ih h)

/-- With distinct keys each entry is the one that is found under its key. -/
theorem get?_eq_some_iff (hkeys : t.keys.Nodup) : t.get? k = some a ↔ (k, a) ∈ t := by
  refine ⟨mem_of_get?_eq_some, fun h => ?_⟩
  induction t with
  | nil => cases h
  | cons first rest ih =>
    obtain ⟨hfirst, hrest⟩ := List.nodup_cons.mp hkeys
    rcases List.mem_cons.mp h with rfl | h
    · rw [get?, if_pos rfl]
    · have hne : first.1 ≠ k := by
        rintro rfl
        have hkey : (first.1, a).1 ∈ keys rest := List.mem_map_of_mem h
        exact hfirst hkey
      rw [get?, if_neg hne, ih hrest h]

theorem mem_put (h : entry ∈ t.put k a) : entry = (k, a) ∨ entry ∈ t := by
  induction t with
  | nil => exact .inl (List.mem_singleton.mp h)
  | cons first rest ih =>
    obtain ⟨j, b⟩ := first
    by_cases hj : j = k
    · simp only [put, hj, if_true, List.mem_cons] at h
      exact h.imp_right (List.mem_cons_of_mem _)
    · simp only [put, hj, if_false, List.mem_cons] at h
      rcases h with rfl | h
      · exact .inr List.mem_cons_self
      · exact (ih h).imp_right (List.mem_cons_of_mem _)

theorem isSome_get? : (t.get? k).isSome ↔ k ∈ t.keys := by
  induction t with
  | nil => simp [get?, keys]
  | cons first rest ih =>
    rw [keys, List.map_cons, List.mem_cons, ← keys, ← ih, get?]
    by_cases hfirst : first.1 = k
    · simp [hfirst]
    · simp [hfirst, Ne.symm hfirst]

theorem eq_or_mem_of_mem_keys_put {k' : κ} (h : k' ∈ (t.put k a).keys) : k' = k ∨ k' ∈ t.keys := by
  rw [keys_put] at h
  split at h
  · exact .inr h
  · simpa [or_comm] using h

theorem mem_keys_put {k' : κ} (h : k' ∈ t.keys) : k' ∈ (t.put k a).keys := by
  rw [keys_put]
  split
  · exact h
  · exact List.mem_append_left _ h

theorem put_put (t : Table κ α) (k : κ) (a b : α) : (t.put k a).put k b = t.put k b := by
  induction t with
  | nil => simp [put]
  | cons entry rest ih => by_cases hk : entry.1 = k <;> simp [put, hk, ih]

theorem put_eq_self (h : t.get? k = some a) : t.put k a = t := by
  induction t with
  | nil => cases h
  | cons entry rest ih =>
    obtain ⟨j, b⟩ := entry
    by_cases hj : j = k
    · subst hj
      simp_all [get?, put]
    · simp only [get?, if_neg hj] at h
      simp [put, hj, ih h]

theorem get?_map {β : Type} (t : Table κ α) (f : α → β) (k : κ) :
    get? (t.map fun (k, a) => (k, f a)) k = (t.get? k).map f := by
  induction t with
  | nil => rfl
  | cons entry rest ih => by_cases hk : entry.1 = k <;> simp [get?, hk, ih]

theorem put_of_not_mem (h : k ∉ t.keys) (a : α) : t.put k a = t ++ [(k, a)] := by
  induction t with
  | nil => rfl
  | cons first rest ih =>
    have hrest : k ∉ keys rest := fun hmem => h (List.mem_cons_of_mem _ hmem)
    have hfirst : first.1 ≠ k := by
      rintro rfl
      exact h List.mem_cons_self
    rw [put, if_neg hfirst, ih hrest, List.cons_append]

theorem put_of_mem (hkeys : t.keys.Nodup) (hk : k ∈ t.keys) (a : α) :
    t.put k a = t.map fun entry => if entry.1 = k then (k, a) else entry := by
  induction t with
  | nil => cases hk
  | cons first rest ih =>
    obtain ⟨hfirst, hrest⟩ := List.nodup_cons.mp hkeys
    rw [put, List.map_cons]
    by_cases h : first.1 = k
    · subst h
      have hsame : (rest.map fun entry => if entry.1 = first.1 then (first.1, a) else entry) = rest := by
        refine (List.map_congr_left fun entry hmem => ?_).trans (List.map_id rest)
        have hne : entry.1 ≠ first.1 := by
          intro heq
          have hentry : entry.1 ∈ keys rest := List.mem_map_of_mem hmem
          rw [heq] at hentry
          exact hfirst hentry
        rw [if_neg hne, id_eq]
      rw [if_pos rfl, if_pos rfl, hsame]
    · have hk : k ∈ keys rest := (List.mem_cons.mp hk).resolve_left (Ne.symm h)
      rw [if_neg h, if_neg h, ih hrest hk]

theorem nodup_keys_put (hkeys : t.keys.Nodup) (k : κ) (a : α) : (t.put k a).keys.Nodup := by
  rw [keys_put]
  split
  · exact hkeys
  · rename_i hk
    refine List.nodup_append.mpr ⟨hkeys, List.pairwise_singleton _ k, fun j hj k' hk' => ?_⟩
    rintro rfl
    exact hk (List.mem_singleton.mp hk' ▸ hj)

/-- At most the new entry is more than there was. -/
theorem put_subperm (t : Table κ α) (k : κ) (a : α) : (t.put k a).Subperm (t ++ [(k, a)]) := by
  induction t with
  | nil => exact List.Subperm.refl _
  | cons first rest ih =>
    rw [put]
    split
    · have hlast : ((k, a) :: rest).Perm (rest ++ [(k, a)]) := (List.perm_append_singleton _ _).symm
      exact hlast.subperm.trans (List.sublist_cons_self _ _).subperm
    · exact (List.subperm_cons _).mpr ih

theorem erase_cons_self (hk : k ∉ t.keys) : erase ((k, a) :: t) k = t := by
  have hrest : ∀ entry ∈ t, entry.1 ≠ k := by
    rintro entry hmem rfl
    exact hk (List.mem_map_of_mem hmem)
  rw [erase, List.filter_cons_of_neg (by simp), List.filter_eq_self]
  simpa using hrest

end Table
end Scriptlet
