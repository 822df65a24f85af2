import Mathlib.Logic.Relation
import Scriptlet.Proofs.Evaluation.States

/-! The objects of a state and how they refer to one another.  A scope refers to the scope around it and to what its
values name, an array to what its elements name; a function names the scope of its definition.  An operation on a state
gives references to one object at most. -/
namespace Scriptlet
open Relation (ReflTransGen)

inductive Ref
  | scope (id : ScopeId)
  | array (id : ArrayId)
  | text (id : TextId)
deriving DecidableEq, Repr

def Value.refs : Value → List Ref
  | str id => [.text id]
  | arr id => [.array id]
  | fn _ _ scope => [.scope scope]
  | returned v => refs v
  | int _ | bool _ | null | builtin _ | error _ => []

namespace State
variable {s s' s'' : State} {E F : ScopeId} {name : String} {v : Value} {scope : Scope} {r r' start goal : Ref}
  {T : Ref → Prop} {vs vs' : List Value} {id : ArrayId}

def Has (s : State) : Ref → Prop
  | .scope id => id < s.scopes.size
  | .array id => id < s.arrays.size
  | .text id => id < s.texts.size

def Supports (s : State) (v : Value) : Prop := ∀ r ∈ v.refs, s.Has r

theorem supports_of_refs_eq_nil (h : v.refs = []) : s.Supports v := by simp [Supports, h]

theorem supports_of_refs_eq_singleton (h : v.refs = [r]) (hr : s.Has r) : s.Supports v := by
  simpa [Supports, h] using hr

inductive Refers (s : State) : Ref → Ref → Prop
  | outer {E o : ScopeId} {scope : Scope} (hscope : s.scopes[E]? = some scope) (ho : scope.outer = some o) :
      s.Refers (.scope E) (.scope o)
  | binding {E : ScopeId} {scope : Scope} {name : String} {v : Value} {r : Ref} (hscope : s.scopes[E]? = some scope)
      (hv : scope.bindings.get? name = some v) (hr : r ∈ v.refs) : s.Refers (.scope E) r
  | element {id : ArrayId} {vs : List Value} {v : Value} {r : Ref} (hvs : s.arrays[id]? = some vs) (hv : v ∈ vs)
      (hr : r ∈ v.refs) : s.Refers (.array id) r

def Reaches (s : State) : Ref → Ref → Prop := ReflTransGen s.Refers

/-- From `s` to `s'` no object but `start` gets a reference, and `start` gets some to objects in `T` only. -/
def Gains (s s' : State) (start : Ref) (T : Ref → Prop) : Prop :=
  ∀ r r', s'.Refers r r' → s.Refers r r' ∨ r = start ∧ T r'

theorem gains_of_same (hscopes : s'.scopes = s.scopes) (harrays : s'.arrays = s.arrays) : Gains s s' start T := by
  intro r r' h
  left
  cases h with
  | outer hscope ho => exact .outer (hscopes ▸ hscope) ho
  | binding hscope hv hr => exact .binding (hscopes ▸ hscope) hv hr
  | element hvs hv hr => exact .element (harrays ▸ hvs) hv hr

theorem gains_put : Gains s (s.put E name v) (.scope E) (· ∈ v.refs) := by
  intro r r' h
  cases h with
  | @outer F o scope hscope ho =>
    rw [scopes_put_getElem?] at hscope
    by_cases hF : E = F
    · obtain ⟨old, hold, rfl⟩ := Option.map_eq_some_iff.mp ((if_pos hF).symm.trans hscope)
      exact .inl (.outer hold ho)
    · exact .inl (.outer ((if_neg hF).symm.trans hscope) ho)
  | @binding F scope x u _ hscope hu hr =>
    rw [scopes_put_getElem?] at hscope
    by_cases hF : E = F
    · obtain ⟨old, hold, rfl⟩ := Option.map_eq_some_iff.mp ((if_pos hF).symm.trans hscope)
      rw [Table.get?_put] at hu
      by_cases hx : name = x
      · have hvu : v = u := Option.some.inj ((if_pos hx).symm.trans hu)
        exact .inr ⟨congrArg _ hF.symm, hvu ▸ hr⟩
      · exact .inl (.binding hold ((if_neg hx).symm.trans hu) hr)
    · exact .inl (.binding ((if_neg hF).symm.trans hscope) hu hr)
  | element hvs hv hr => exact .inl (.element hvs hv hr)

theorem gains_addScope : Gains s (s.addScope scope) (.scope s.scopes.size)
    fun r => (∃ o, scope.outer = some o ∧ r = .scope o) ∨
      ∃ name v, scope.bindings.get? name = some v ∧ r ∈ v.refs := by
  intro r r' h
  cases h with
  | @outer F o new hscope ho =>
    rw [scopes_addScope_getElem?] at hscope
    by_cases hF : F = s.scopes.size
    · have hnew : scope = new := Option.some.inj ((if_pos hF).symm.trans hscope)
      exact .inr ⟨congrArg _ hF, .inl ⟨o, hnew ▸ ho, rfl⟩⟩
    · exact .inl (.outer ((if_neg hF).symm.trans hscope) ho)
  | @binding F new x u _ hscope hu hr =>
    rw [scopes_addScope_getElem?] at hscope
    by_cases hF : F = s.scopes.size
    · have hnew : scope = new := Option.some.inj ((if_pos hF).symm.trans hscope)
      exact .inr ⟨congrArg _ hF, .inr ⟨x, u, hnew ▸ hu, hr⟩⟩
    · exact .inl (.binding ((if_neg hF).symm.trans hscope) hu hr)
  | element hvs hv hr => exact .inl (.element hvs hv hr)

/-- The scope of a call refers to the scope of the function's definition and to what the arguments name. -/
theorem gains_addScope_localScope {captured : ScopeId} {params : List String} :
    Gains s (s.addScope (Eval.localScope captured params vs)) (.scope s.scopes.size)
      fun r => r = .scope captured ∨ ∃ v ∈ vs, r ∈ v.refs := by
  intro r r' h
  rcases gains_addScope r r' h with h | ⟨hr, ⟨o, ho, hr'⟩ | ⟨name, v, hv, hr'⟩⟩
  · exact .inl h
  · have hcaptured : captured = o := Option.some.inj ho
    exact .inr ⟨hr, .inl (hcaptured ▸ hr')⟩
  · have hmem : v ∈ vs := Eval.mem_of_mem_localScope (Table.mem_of_get?_eq_some hv)
    exact .inr ⟨hr, .inr ⟨v, hmem, hr'⟩⟩

theorem gains_addArray : Gains s (s.addArray vs) (.array s.arrays.size) fun r => ∃ v ∈ vs, r ∈ v.refs := by
  intro r r' h
  cases h with
  | outer hscope ho => exact .inl (.outer hscope ho)
  | binding hscope hv hr => exact .inl (.binding hscope hv hr)
  | @element id new v _ hvs hv hr =>
    rw [arrays_addArray_getElem?] at hvs
    by_cases hid : id = s.arrays.size
    · have hnew : vs = new := Option.some.inj ((if_pos hid).symm.trans hvs)
      exact .inr ⟨congrArg _ hid, v, hnew ▸ hv, hr⟩
    · exact .inl (.element ((if_neg hid).symm.trans hvs) hv hr)

theorem gains_setArray (hvs : s.arrays[id]? = some vs) (hpart : vs' <:+: vs) : Gains s (s.setArray id vs') start T := by
  intro r r' h
  left
  cases h with
  | outer hscope ho => exact .outer hscope ho
  | binding hscope hv hr => exact .binding hscope hv hr
  | @element id' us v _ hus hv hr =>
    by_cases hid : id = id'
    · have hlt : id' < s.arrays.size := hid ▸ (Array.getElem?_eq_some_iff.mp hvs).1
      have heq : vs' = us := by simpa [setArray, hid, hlt] using hus
      exact .element (hid ▸ hvs) (hpart.mem (heq ▸ hv)) hr
    · have hold : s.arrays[id']? = some us := by simpa [setArray, hid] using hus
      exact .element hold hv hr

/-- Where new references lead nowhere near an object, no way to it is new. -/
theorem Gains.reaches (h : Gains s s' start T) (hT : ∀ r, T r → ¬ s.Reaches r goal) (hr : s'.Reaches r goal) :
    s.Reaches r goal := by
  induction hr using ReflTransGen.head_induction_on with
  | refl => exact .refl
  | @head r r' hfirst _ ih =>
    rcases h r r' hfirst with hold | ⟨-, hnew⟩
    · exact .head hold ih
    · exact absurd ih (hT r' hnew)

/-- A name is found on a scope that lies around the one in which the search starts. -/
theorem exists_scope_of_find? (h : s.find? E name = some v) : ∃ (F : ScopeId) (scope : Scope),
    s.Reaches (.scope E) (.scope F) ∧ s.scopes[F]? = some scope ∧ scope.bindings.get? name = some v := by
  -- The search goes outwards only to scopes of smaller numbers.
  induction E using Nat.strongRecOn with
  | _ E ih =>
    rw [find?] at h
    split at h
    · cases h
    · next outer bindings hscope =>
      split at h
      · next u hget =>
        obtain rfl := Option.some.inj h
        exact ⟨E, _, .refl, hscope, hget⟩
      · split at h
        · cases h
        · next o =>
          split at h
          · next hlt =>
            obtain ⟨F, found, hreaches, hfound⟩ := ih o hlt h
            exact ⟨F, found, .head (.outer hscope rfl) hreaches, hfound⟩
          · cases h

theorem reaches_of_find? (h : s.find? E name = some v) (hr : r ∈ v.refs) : s.Reaches (.scope E) r := by
  obtain ⟨F, scope, hreaches, hscope, hv⟩ := exists_scope_of_find? h
  exact hreaches.tail (.binding hscope hv hr)

end State
end Scriptlet
