import Scriptlet.Eval.Basic
import Scriptlet.Proofs.Data.Tables

/-! What the operations on a state do to its scopes and arrays. -/
namespace Scriptlet
namespace State
variable {s : State} {E F : ScopeId} {name : String} {v : Value} {scope : Scope}

theorem scopes_put_getElem? : (s.put E name v).scopes[F]? =
    if E = F then s.scopes[F]?.map fun sc => { sc with bindings := sc.bindings.put name v } else s.scopes[F]? :=
  Array.getElem?_modify

theorem scopes_addScope_getElem? :
    (s.addScope scope).scopes[F]? = if F = s.scopes.size then some scope else s.scopes[F]? :=
  Array.getElem?_push

theorem arrays_addArray_getElem? {vs : List Value} {id : ArrayId} :
    (s.addArray vs).arrays[id]? = if id = s.arrays.size then some vs else s.arrays[id]? :=
  Array.getElem?_push

theorem arrays_setArray_getElem? {vs vs' : List Value} {id id' : ArrayId}
    (h : (s.setArray id vs).arrays[id']? = some vs') : vs' = vs ∨ s.arrays[id']? = some vs' := by
  simp only [setArray, Array.getElem?_setIfInBounds] at h
  split at h
  · split at h
    · exact .inl (Option.some.inj h).symm
    · cases h
  · exact .inr h

end State

namespace Eval

variable {captured : ScopeId} {params : List String} {args : List Value} {entry : String × Value}

theorem mem_zip_of_mem_localScope (h : entry ∈ (localScope captured params args).bindings) :
    entry ∈ params.zip args := by
  refine List.foldlRecOn (motive := fun bindings : Table String Value => ∀ entry ∈ bindings, entry ∈ params.zip args)
    (params.zip args) _ (by simp) ?_ entry h
  intro bindings hbindings pair hpair entry hentry
  rcases Table.mem_put hentry with rfl | hentry
  · exact hpair
  · exact hbindings entry hentry

theorem mem_of_mem_localScope (h : entry ∈ (localScope captured params args).bindings) : entry.2 ∈ args :=
  (List.of_mem_zip (mem_zip_of_mem_localScope h)).2

theorem mem_params_of_mem_localScope (h : entry ∈ (localScope captured params args).bindings) : entry.1 ∈ params :=
  (List.of_mem_zip (mem_zip_of_mem_localScope h)).1

end Eval
end Scriptlet
