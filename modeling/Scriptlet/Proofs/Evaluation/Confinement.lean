import Scriptlet.Proofs.Evaluation.Lawful
import Scriptlet.Proofs.Evaluation.References

/-! Evaluation stays among the objects that it can reach.  If no way leads from the scope of an evaluation to another
scope, then none leads there from the values that it comes by, and it makes no new way from anywhere. -/
namespace Scriptlet
namespace State
variable {s : State} {E F : ScopeId} {start goal : Ref}

theorem eq_of_reaches (hnone : ∀ r, ¬ s.Refers start r) (h : s.Reaches start goal) : start = goal := by
  rcases Relation.ReflTransGen.cases_head h with heq | ⟨r, hfirst, -⟩
  · exact heq
  · exact absurd hfirst (hnone r)

theorem not_reaches_of_text {id : TextId} : ¬ s.Reaches (.text id) (.scope E) := by
  intro h
  have hnone (r : Ref) : ¬ s.Refers (.text id) r := by
    intro hr
    cases hr
  have heq := eq_of_reaches hnone h
  cases heq

theorem not_reaches_of_newArray : ¬ s.Reaches (.array s.arrays.size) (.scope E) := by
  intro h
  have hnone (r : Ref) : ¬ s.Refers (.array s.arrays.size) r := by
    intro hr
    cases hr with
    | element hvs _ _ => simp at hvs
  have heq := eq_of_reaches hnone h
  cases heq

theorem not_reaches_of_newScope (hE : E < s.scopes.size) : ¬ s.Reaches (.scope s.scopes.size) (.scope E) := by
  intro h
  have hnone (r : Ref) : ¬ s.Refers (.scope s.scopes.size) r := by
    intro hr
    cases hr with
    | outer hscope _ => simp at hscope
    | binding hscope _ _ => simp at hscope
  have heq : s.scopes.size = E := Ref.scope.inj (eq_of_reaches hnone h)
  exact Nat.ne_of_gt hE heq

end State

namespace Law
open State

/-- No way to a scope is new, and none leads there from where an evaluation goes on. -/
def avoiding (E : ScopeId) : Law where
  Holds s := E < s.scopes.size
  Leads _ s s' := ∀ r, s'.Reaches r (.scope E) → s.Reaches r (.scope E)
  Allows s v := ∀ r ∈ v.refs, ¬ s.Reaches r (.scope E)
  Knows s F := ¬ s.Reaches (.scope F) (.scope E)
  Admits _ := True

variable {E : ScopeId} {s s' : State}

theorem avoiding_allows_of_refs_eq_nil {v : Value} (h : v.refs = []) : (avoiding E).Allows s v := by
  intro r hr
  rw [h] at hr
  cases hr

theorem avoiding_allows_of_refs_eq_singleton {v : Value} {r : Ref} (h : v.refs = [r]) (hr : ¬ s.Reaches r (.scope E)) :
    (avoiding E).Allows s v := by
  intro r' hr'
  rw [h, List.mem_singleton] at hr'
  rw [hr']
  exact hr

theorem avoiding_leads_of_gains {start : Ref} {T : Ref → Prop} (F : ScopeId) (hgains : Gains s s' start T)
    (hT : ∀ r, T r → ¬ s.Reaches r (.scope E)) : (avoiding E).Leads F s s' := fun _ hr => hgains.reaches hT hr

theorem avoiding_leads_of_same (F : ScopeId) (hscopes : s'.scopes = s.scopes) (harrays : s'.arrays = s.arrays) :
    (avoiding E).Leads F s s' := by
  have hgains : Gains s s' (.scope 0) fun _ => False := gains_of_same hscopes harrays
  exact avoiding_leads_of_gains F hgains fun _ => False.elim

theorem avoiding_closed (E : ScopeId) : (avoiding E).Closed where
  refl _ _ _ hr := hr
  trans h h' r hr := h r (h' r hr)
  allows_mono h hv r hr hreach := hv r hr (h r hreach)
  knows_mono h hF hreach := hF (h _ hreach)
  child _ _ := trivial
  null _ := avoiding_allows_of_refs_eq_nil rfl
  bool _ _ := avoiding_allows_of_refs_eq_nil rfl
  builtin _ _ := avoiding_allows_of_refs_eq_nil rfl
  int _ := avoiding_allows_of_refs_eq_nil rfl
  wrap _ _ := avoiding_allows_of_refs_eq_nil rfl
  textLength _ _ := avoiding_allows_of_refs_eq_nil rfl
  arrayLength _ _ := avoiding_allows_of_refs_eq_nil rfl
  fn _ hF := avoiding_allows_of_refs_eq_singleton rfl hF
  body _ := trivial
  returned hv := hv
  find _ hF hv r hr hreach := hF ((reaches_of_find? hv hr).trans hreach)
  element _ hid hvs hv r hr hreach := hid _ (by simp [Value.refs]) (.head (.element hvs hv hr) hreach)
  bind {F s scope name v} h hF hscope hv _ := by
    have hlt : E < s.scopes.size := h
    have hsize : E < (s.put F name v).scopes.size := by simpa [put] using hlt
    exact ⟨hsize, avoiding_leads_of_gains F gains_put hv⟩
  enter {F s params _ captured vs} h hfn hvs _ := by
    have hleads (F : ScopeId) : (avoiding E).Leads F s (s.addScope (Eval.localScope captured params vs)) := by
      refine avoiding_leads_of_gains F gains_addScope_localScope ?_
      rintro r (rfl | ⟨v, hv, hr⟩)
      · exact hfn _ (by simp [Value.refs])
      · exact hvs v hv r hr
    have hlt : E < s.scopes.size := h
    have hsize : E < (s.addScope (Eval.localScope captured params vs)).scopes.size := by
      simpa [addScope] using Nat.lt_succ_of_lt hlt
    exact ⟨⟨hsize, fun hreach => not_reaches_of_newScope h (hleads F _ hreach)⟩,
      fun s' hbody r hr => hleads F r (hbody r hr)⟩
  addText {s} F cs h :=
    ⟨⟨h, avoiding_leads_of_same F rfl rfl⟩, avoiding_allows_of_refs_eq_singleton rfl not_reaches_of_text⟩
  addArray {s vs} F h hvs := by
    have hleads : (avoiding E).Leads F s (s.addArray vs) := by
      refine avoiding_leads_of_gains F gains_addArray ?_
      rintro r ⟨v, hv, hr⟩
      exact hvs v hv r hr
    have hnew : ¬ (s.addArray vs).Reaches (.array s.arrays.size) (.scope E) := fun hreach =>
      not_reaches_of_newArray (hleads _ hreach)
    exact ⟨⟨h, hleads⟩, avoiding_allows_of_refs_eq_singleton rfl hnew⟩
  setText F h _ _ := ⟨h, avoiding_leads_of_same F rfl rfl⟩
  setArray {s id vs vs'} F h hvs hpart := by
    have hgains : Gains s (s.setArray id vs') (.scope 0) fun _ => False := gains_setArray hvs hpart
    exact ⟨h, avoiding_leads_of_gains F hgains fun _ => False.elim⟩
  print F _ h := ⟨h, avoiding_leads_of_same F rfl rfl⟩

end Law
end Scriptlet
