import Scriptlet.Proofs.Evaluation.Mirroring
import Scriptlet.Proofs.Evaluation.References

/-! Hiding what one scope binds.  Two states differ in these bindings alone if they are the same once those are hidden,
and whatever does not get to the scope does not see the difference. -/
namespace Scriptlet
namespace State

/-- Two states that differ in the bindings of one scope at most. -/
structure AgreeBut (E : ScopeId) (s s' : State) : Prop where
  texts : s.texts = s'.texts
  arrays : s.arrays = s'.arrays
  printed : s.printed = s'.printed
  scopes : ∀ F ≠ E, s.scopes[F]? = s'.scopes[F]?
  outer : s.scopes[E]?.map (·.outer) = s'.scopes[E]?.map (·.outer)

def hide (E : ScopeId) (s : State) : State :=
  { s with scopes := s.scopes.modify E fun scope => { scope with bindings := [] } }

section
variable {E F : ScopeId} {s s' : State} {scope : Scope} {name : String} {v : Value}

@[simp] theorem hide_scopes_size : (s.hide E).scopes.size = s.scopes.size := by simp [hide]

theorem hide_scopes_getElem? : (s.hide E).scopes[F]? =
    if E = F then s.scopes[F]?.map fun scope => { scope with bindings := [] } else s.scopes[F]? :=
  Array.getElem?_modify

theorem hide_scopes_of_ne (h : E ≠ F) : (s.hide E).scopes[F]? = s.scopes[F]? := by
  rw [hide_scopes_getElem?, if_neg h]

theorem eq_of_scopes (htexts : s.texts = s'.texts) (harrays : s.arrays = s'.arrays) (hprinted : s.printed = s'.printed)
    (hscopes : ∀ F : ScopeId, s.scopes[F]? = s'.scopes[F]?) : s = s' := by
  have hstrings : s.strings = s'.strings := strings_eq_of_texts_eq htexts
  have hall : s.scopes = s'.scopes := Array.ext_getElem? hscopes
  cases s
  cases s'
  simp_all

theorem hide_put (h : E ≠ F) : (s.put F name v).hide E = (s.hide E).put F name v := by
  refine eq_of_scopes rfl rfl rfl fun G => ?_
  rw [hide_scopes_getElem?, scopes_put_getElem?, scopes_put_getElem?, hide_scopes_getElem?]
  by_cases hE : E = G
  · have hF : F ≠ G := fun hF => h (hE.trans hF.symm)
    simp [hE, hF]
  · simp [hE]

theorem hide_addScope (h : E ≠ s.scopes.size) : (s.addScope scope).hide E = (s.hide E).addScope scope := by
  refine eq_of_scopes rfl rfl rfl fun G => ?_
  rw [hide_scopes_getElem?, scopes_addScope_getElem?, scopes_addScope_getElem?, hide_scopes_getElem?, hide_scopes_size]
  by_cases hG : G = s.scopes.size
  · simp [hG, h]
  · simp [hG]

/-- A search that does not get to the scope finds what it would find anyway. -/
theorem find?_hide (h : ¬ s.Reaches (.scope F) (.scope E)) : (s.hide E).find? F name = s.find? F name := by
  induction F using Nat.strongRecOn with
  | _ F ih =>
    have hne : E ≠ F := by
      rintro rfl
      exact h .refl
    rw [find?, find?, hide_scopes_of_ne hne]
    cases hscope : s.scopes[F]? with
    | none => rfl
    | some scope =>
      obtain ⟨outer, bindings⟩ := scope
      cases outer with
      | none => rfl
      | some o =>
        have ho : ¬ s.Reaches (.scope o) (.scope E) := fun hreach => h (.head (.outer hscope rfl) hreach)
        by_cases hlt : o < F
        · simp [hlt, ih o hlt ho]
        · simp [hlt]

theorem lookup_hide (h : ¬ s.Reaches (.scope F) (.scope E)) : (s.hide E).lookup F name = s.lookup F name := by
  rw [lookup, lookup, find?_hide h]

theorem agreeBut_iff_hide_eq : s.AgreeBut E s' ↔ s.hide E = s'.hide E := by
  constructor
  · intro h
    refine eq_of_scopes h.texts h.arrays h.printed fun F => ?_
    rw [hide_scopes_getElem?, hide_scopes_getElem?]
    by_cases hF : E = F
    · have houter := h.outer
      subst hF
      cases hs : s.scopes[E]? <;> cases hs' : s'.scopes[E]? <;> simp_all
    · simp [hF, h.scopes F (Ne.symm hF)]
  · intro h
    have hscopes (F : ScopeId) : (s.hide E).scopes[F]? = (s'.hide E).scopes[F]? := by rw [h]
    have htexts : (s.hide E).texts = (s'.hide E).texts := by rw [h]
    have harrays : (s.hide E).arrays = (s'.hide E).arrays := by rw [h]
    have hprinted : (s.hide E).printed = (s'.hide E).printed := by rw [h]
    refine ⟨htexts, harrays, hprinted, fun F hF => ?_, ?_⟩
    · have hF' := hscopes F
      rwa [hide_scopes_of_ne (Ne.symm hF), hide_scopes_of_ne (Ne.symm hF)] at hF'
    · have hE := congrArg (Option.map (·.outer)) (hscopes E)
      simpa [hide_scopes_getElem?, Function.comp_def] using hE

theorem veil_hide (E : ScopeId) : Veil (hide E) :=
  ⟨fun _ => rfl, fun _ => rfl, fun _ _ => rfl, fun _ _ => rfl, fun _ _ _ => rfl, fun _ _ _ => rfl, fun _ _ => rfl⟩

theorem AgreeBut.refl (E : ScopeId) (s : State) : s.AgreeBut E s := agreeBut_iff_hide_eq.mpr rfl

theorem AgreeBut.size_eq (h : s.AgreeBut E s') : s.scopes.size = s'.scopes.size := by
  rw [← hide_scopes_size (E := E), agreeBut_iff_hide_eq.mp h, hide_scopes_size]

theorem AgreeBut.eq_of_le (h : s.AgreeBut E s') (hE : s.scopes.size ≤ E) : s = s' := by
  refine eq_of_scopes h.texts h.arrays h.printed fun F => ?_
  by_cases hF : F = E
  · have houter := h.outer
    simp only [Array.getElem?_eq_none hE, Option.map_none] at houter
    rw [hF, Array.getElem?_eq_none hE, Option.map_eq_none_iff.mp houter.symm]
  · exact h.scopes F hF

/-- A way to the scope does not need its bindings. -/
theorem AgreeBut.reaches {r : Ref} (h : s.AgreeBut E s') (hr : s'.Reaches r (.scope E)) : s.Reaches r (.scope E) := by
  induction hr using Relation.ReflTransGen.head_induction_on with
  | refl => exact .refl
  | @head r r' hfirst _ ih =>
    by_cases hr : r = .scope E
    · exact hr ▸ .refl
    refine .head ?_ ih
    cases hfirst with
    | @outer F o scope hscope ho =>
      have hF : F ≠ E := fun hF => hr (congrArg Ref.scope hF)
      exact .outer ((h.scopes F hF).trans hscope) ho
    | @binding F scope name v _ hscope hv hr' =>
      have hF : F ≠ E := fun hF => hr (congrArg Ref.scope hF)
      exact .binding ((h.scopes F hF).trans hscope) hv hr'
    | element hvs hv hr' => exact .element (h.arrays ▸ hvs) hv hr'

end
end State

namespace Run
variable {E F : ScopeId} {s : State}

theorem mirrors_hide_bindName (h : E ≠ F) (name : String) (v : Value) :
    Mirrors (State.hide E) (bindName F name v) (bindName F name v) s := by
  refine mirrors_bind (mirrors_find (State.hide_scopes_of_ne h)) fun _ s' _ => ?_
  exact mirrors_change (State.hide_put h).symm

theorem mirrors_hide_newScope (h : E ≠ s.scopes.size) (scope : Scope) :
    Mirrors (State.hide E) (newScope scope) (newScope scope) s := by
  simp only [Mirrors, newScope, State.hide_scopes_size, State.hide_addScope h]

end Run
end Scriptlet
