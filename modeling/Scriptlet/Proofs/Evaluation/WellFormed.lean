import Scriptlet.Proofs.Evaluation.Lawful
import Scriptlet.Proofs.Evaluation.References

/-! States whose references lead somewhere.  Objects are numbered as they are made, a scope lies in an older one and an
array holds older ones; so looking a name up and walking into an array both come to an end. -/
namespace Scriptlet
namespace State
variable {s s' s'' : State} {E F : ScopeId} {name : String} {v : Value} {scope : Scope} {r start : Ref}
  {T : Ref → Prop} {vs vs' : List Value} {id : ArrayId}

structure WellFormed (s : State) : Prop where
  has : ∀ r r', s.Refers r r' → s.Has r'
  outer_lt : ∀ (E : ScopeId) (scope : Scope) (o : ScopeId), s.scopes[E]? = some scope → scope.outer = some o → o < E
  element_lt : ∀ id id', s.Refers (.array id) (.array id') → id' < id

structure Grows (s s' : State) : Prop where
  texts : s.texts.size ≤ s'.texts.size
  arrays : s.arrays.size ≤ s'.arrays.size
  scopes : s.scopes.size ≤ s'.scopes.size

namespace Grows

theorem refl (s : State) : Grows s s := ⟨Nat.le_refl _, Nat.le_refl _, Nat.le_refl _⟩

theorem trans (h : Grows s s') (h' : Grows s' s'') : Grows s s'' :=
  ⟨Nat.le_trans h.texts h'.texts, Nat.le_trans h.arrays h'.arrays, Nat.le_trans h.scopes h'.scopes⟩

theorem has (h : Grows s s') (hr : s.Has r) : s'.Has r := by
  cases r with
  | scope id => exact Nat.lt_of_lt_of_le hr h.scopes
  | array id => exact Nat.lt_of_lt_of_le hr h.arrays
  | text id => exact Nat.lt_of_lt_of_le hr h.texts

theorem supports (h : Grows s s') (hv : s.Supports v) : s'.Supports v := fun r hr => h.has (hv r hr)

theorem put : Grows s (s.put E name v) := ⟨Nat.le_refl _, Nat.le_refl _, by simp [State.put]⟩

theorem addScope : Grows s (s.addScope scope) := ⟨Nat.le_refl _, Nat.le_refl _, by simp [State.addScope]⟩

theorem addText (cs : List Char) : Grows s (s.addText cs) := ⟨by simp, Nat.le_refl _, Nat.le_refl _⟩

theorem addArray : Grows s (s.addArray vs) := ⟨Nat.le_refl _, by simp [State.addArray], Nat.le_refl _⟩

theorem setText (id : TextId) (cs : List Char) : Grows s (s.setText id cs) :=
  ⟨by simp, Nat.le_refl _, Nat.le_refl _⟩

theorem setArray : Grows s (s.setArray id vs) := ⟨Nat.le_refl _, by simp [State.setArray], Nat.le_refl _⟩

theorem print (line : String) : Grows s (s.print line) := ⟨Nat.le_refl _, Nat.le_refl _, Nat.le_refl _⟩

end Grows

namespace WellFormed

theorem initial : State.initial.WellFormed := by
  have hscope (E : ScopeId) (scope : Scope) (h : State.initial.scopes[E]? = some scope) : scope = ⟨none, []⟩ := by
    cases E with
    | zero => exact (Option.some.inj h).symm
    | succ E => simp [State.initial] at h
  have hnone (r r' : Ref) : ¬ State.initial.Refers r r' := by
    intro h
    cases h with
    | outer h ho =>
      rw [hscope _ _ h] at ho
      cases ho
    | binding h hv _ =>
      rw [hscope _ _ h] at hv
      cases hv
    | element hvs _ _ => simp [State.initial] at hvs
  refine ⟨fun r r' h => absurd h (hnone r r'), fun E scope o h ho => ?_, fun id id' h => absurd h (hnone _ _)⟩
  rw [hscope E scope h] at ho
  cases ho

/-- New references to objects that are there, from an array to older ones, keep a state well-formed. -/
theorem of_gains (h : s.WellFormed) (hgains : Gains s s' start T) (hgrows : Grows s s') (hT : ∀ r, T r → s'.Has r)
    (houter : ∀ (E : ScopeId) (scope : Scope) (o : ScopeId), s'.scopes[E]? = some scope → scope.outer = some o → o < E)
    (helement : ∀ id id', start = .array id → T (.array id') → id' < id) : s'.WellFormed := by
  refine ⟨fun r r' hr => ?_, houter, fun id id' hr => ?_⟩
  · rcases hgains r r' hr with hold | ⟨-, hnew⟩
    · exact hgrows.has (h.has r r' hold)
    · exact hT r' hnew
  · rcases hgains _ _ hr with hold | ⟨hstart, hnew⟩
    · exact h.element_lt id id' hold
    · exact helement id id' hstart.symm hnew

theorem of_same (h : s.WellFormed) (hscopes : s'.scopes = s.scopes) (harrays : s'.arrays = s.arrays)
    (hgrows : Grows s s') : s'.WellFormed := by
  have hgains : Gains s s' (.scope 0) fun _ => False := gains_of_same hscopes harrays
  refine h.of_gains hgains hgrows (fun _ => False.elim) (fun E scope o hscope ho => ?_) (fun _ _ _ => False.elim)
  rw [hscopes] at hscope
  exact h.outer_lt E scope o hscope ho

theorem put (h : s.WellFormed) (hv : s.Supports v) : (s.put E name v).WellFormed := by
  refine h.of_gains gains_put .put (fun r hr => Grows.put.has (hv r hr)) (fun F scope o hscope ho => ?_) (by simp)
  rw [scopes_put_getElem?] at hscope
  by_cases hF : E = F
  · obtain ⟨old, hold, rfl⟩ := Option.map_eq_some_iff.mp ((if_pos hF).symm.trans hscope)
    exact h.outer_lt F old o hold ho
  · exact h.outer_lt F scope o ((if_neg hF).symm.trans hscope) ho

theorem addScope {captured : ScopeId} {params : List String} (h : s.WellFormed) (hcaptured : s.Has (.scope captured))
    (hvs : ∀ v ∈ vs, s.Supports v) : (s.addScope (Eval.localScope captured params vs)).WellFormed := by
  refine h.of_gains gains_addScope_localScope .addScope ?_ (fun F scope o hscope ho => ?_) (by simp)
  · rintro r (rfl | ⟨v, hv, hr⟩)
    · exact Grows.addScope.has hcaptured
    · exact Grows.addScope.has (hvs v hv r hr)
  · rw [scopes_addScope_getElem?] at hscope
    by_cases hF : F = s.scopes.size
    · obtain rfl := Option.some.inj ((if_pos hF).symm.trans hscope)
      have hcaptured' : captured = o := Option.some.inj ho
      rw [hF, ← hcaptured']
      exact hcaptured
    · exact h.outer_lt F scope o ((if_neg hF).symm.trans hscope) ho

theorem addArray (h : s.WellFormed) (hvs : ∀ v ∈ vs, s.Supports v) : (s.addArray vs).WellFormed := by
  refine h.of_gains gains_addArray .addArray ?_ h.outer_lt ?_
  · rintro r ⟨v, hv, hr⟩
    exact Grows.addArray.has (hvs v hv r hr)
  -- An element of the new array is an array that was there before, so its number is smaller.
  · rintro id id' hid ⟨v, hv, hr⟩
    have hlt : id' < s.arrays.size := hvs v hv _ hr
    have heq : s.arrays.size = id := Ref.array.inj hid
    exact heq ▸ hlt

theorem setArray (h : s.WellFormed) (hvs : s.arrays[id]? = some vs) (hpart : vs' <:+: vs) :
    (s.setArray id vs').WellFormed := by
  have hgains : Gains s (s.setArray id vs') (.scope 0) fun _ => False := gains_setArray hvs hpart
  exact h.of_gains hgains .setArray (fun _ => False.elim) h.outer_lt (fun _ _ _ => False.elim)

theorem supports_of_find? (h : s.WellFormed) (hv : s.find? E name = some v) : s.Supports v := by
  obtain ⟨F, scope, -, hscope, hget⟩ := exists_scope_of_find? hv
  exact fun r hr => h.has _ r (.binding hscope hget hr)

theorem supports_of_mem (h : s.WellFormed) (hvs : s.arrays[id]? = some vs) (hv : v ∈ vs) : s.Supports v :=
  fun r hr => h.has _ r (.element hvs hv hr)

theorem find?_eq (h : s.WellFormed) (hscope : s.scopes[E]? = some scope) (name : String) :
    s.find? E name = (scope.bindings.get? name).or (scope.outer.bind fun o => s.find? o name) := by
  obtain ⟨outer, bindings⟩ := scope
  rw [find?, hscope]
  cases hget : bindings.get? name with
  | some v => simp [hget]
  | none =>
    cases outer with
    | none => simp [hget]
    | some o =>
      have hlt : o < E := h.outer_lt E _ o hscope rfl
      simp [hget, hlt]

end WellFormed
end State

namespace Law

def referential : Law :=
  ⟨State.WellFormed, fun _ => State.Grows, State.Supports, fun s E => s.Has (.scope E), fun _ => True⟩

theorem referential_closed : referential.Closed where
  refl _ s := State.Grows.refl s
  trans h h' := State.Grows.trans h h'
  allows_mono h hv := h.supports hv
  knows_mono {_ F _ _} h hF := State.Grows.has (r := .scope F) h hF
  child _ _ := trivial
  null _ := State.supports_of_refs_eq_nil rfl
  bool _ _ := State.supports_of_refs_eq_nil rfl
  builtin _ _ := State.supports_of_refs_eq_nil rfl
  int _ := State.supports_of_refs_eq_nil rfl
  wrap _ _ := State.supports_of_refs_eq_nil rfl
  textLength _ _ := State.supports_of_refs_eq_nil rfl
  arrayLength _ _ := State.supports_of_refs_eq_nil rfl
  fn _ hE := State.supports_of_refs_eq_singleton rfl hE
  body _ := trivial
  returned hv := hv
  find h _ hv := h.supports_of_find? hv
  element h _ hvs hv := h.supports_of_mem hvs hv
  bind h _ _ hv _ := ⟨h.put hv, .put⟩
  enter {_ s params _ captured vs} h hfn hvs _ := by
    have hcaptured : s.Has (.scope captured) := hfn _ (by simp [Value.refs])
    have hnew : (s.addScope (Eval.localScope captured params vs)).Has (.scope s.scopes.size) := by
      simp [State.Has, State.addScope]
    exact ⟨⟨h.addScope hcaptured hvs, hnew⟩, fun _ hbody => State.Grows.addScope.trans hbody⟩
  addText {s} _ cs h := by
    have hnew : (s.addText cs).Has (.text s.texts.size) := by simp [State.Has]
    exact ⟨⟨h.of_same rfl rfl (.addText cs), .addText cs⟩, State.supports_of_refs_eq_singleton rfl hnew⟩
  addArray {s vs} _ h hvs := by
    have hnew : (s.addArray vs).Has (.array s.arrays.size) := by simp [State.Has, State.addArray]
    exact ⟨⟨h.addArray hvs, .addArray⟩, State.supports_of_refs_eq_singleton rfl hnew⟩
  setText _ h _ _ := ⟨h.of_same rfl rfl (.setText _ _), .setText _ _⟩
  setArray _ h hvs hpart := ⟨h.setArray hvs hpart, .setArray⟩
  print _ line h := ⟨h.of_same rfl rfl (.print line), .print line⟩

theorem referential_start : referential.Ready State.globalScope .initial := ⟨.initial, Nat.zero_lt_one⟩

end Law
end Scriptlet
