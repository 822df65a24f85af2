import Scriptlet.Proofs.Evaluation.Lawful
import Scriptlet.Proofs.Evaluation.States

/-! What an evaluation leaves alone.  It binds names in its own scope and in scopes that it makes itself; scopes that
were there before keep what they bind, and every scope keeps its place. -/
namespace Scriptlet

/-- From `s` to `s'` nothing but the scope `E` and new scopes got new bindings. -/
structure Frame (E : ScopeId) (s s' : State) : Prop where
  size_le : s.scopes.size ≤ s'.scopes.size
  /-- Other scopes are as they were. -/
  others : ∀ F < s.scopes.size, F ≠ E → s'.scopes[F]? = s.scopes[F]?
  /-- No scope loses a name or moves. -/
  keeps : ∀ (F : ScopeId) (scope : Scope), s.scopes[F]? = some scope →
    ∃ scope', s'.scopes[F]? = some scope' ∧ scope'.outer = scope.outer ∧ scope.bindings.keys ⊆ scope'.bindings.keys

namespace Frame
variable {E : ScopeId} {s s' s'' : State}

theorem of_scopes_eq (h : s'.scopes = s.scopes) : Frame E s s' := by
  refine ⟨Nat.le_of_eq (congrArg _ h.symm), fun F _ _ => by rw [h], fun F scope hscope => ?_⟩
  exact ⟨scope, by rw [h, hscope], rfl, List.Subset.refl _⟩

theorem trans (h : Frame E s s') (h' : Frame E s' s'') : Frame E s s'' := by
  refine ⟨Nat.le_trans h.size_le h'.size_le, fun F hF hne => ?_, fun F scope hscope => ?_⟩
  · rw [h'.others F (Nat.lt_of_lt_of_le hF h.size_le) hne, h.others F hF hne]
  · obtain ⟨scope', hscope', houter, hkeys⟩ := h.keeps F scope hscope
    obtain ⟨scope'', hscope'', houter', hkeys'⟩ := h'.keeps F scope' hscope'
    exact ⟨scope'', hscope'', houter'.trans houter, List.Subset.trans hkeys hkeys'⟩

theorem put (E : ScopeId) (s : State) (name : String) (v : Value) : Frame E s (s.put E name v) := by
  refine ⟨Nat.le_of_eq Array.size_modify.symm, fun F _ hne => ?_, fun F scope hscope => ?_⟩
  · rw [State.scopes_put_getElem?, if_neg (Ne.symm hne)]
  · rw [State.scopes_put_getElem?, hscope]
    split
    · exact ⟨_, rfl, rfl, fun _ => Table.mem_keys_put⟩
    · exact ⟨scope, rfl, rfl, List.Subset.refl _⟩

/-- An evaluation in a scope that is new changes no older one. -/
theorem getElem?_eq_of_addScope {scope : Scope} (h : Frame s.scopes.size (s.addScope scope) s') {F : ScopeId}
    (hF : F < s.scopes.size) : s'.scopes[F]? = s.scopes[F]? := by
  have hsize : F < (s.addScope scope).scopes.size := by
    rw [State.addScope, Array.size_push]
    exact Nat.lt_succ_of_lt hF
  rw [h.others F hsize (Nat.ne_of_lt hF), State.scopes_addScope_getElem?, if_neg (Nat.ne_of_lt hF)]

theorem of_addScope {scope : Scope} (h : Frame s.scopes.size (s.addScope scope) s') : Frame E s s' := by
  refine ⟨?_, fun F hF _ => h.getElem?_eq_of_addScope hF, fun F old hold => ?_⟩
  · have hsize := h.size_le
    rw [State.addScope, Array.size_push] at hsize
    exact Nat.le_of_succ_le hsize
  · obtain ⟨hF, -⟩ := Array.getElem?_eq_some_iff.mp hold
    exact ⟨old, (h.getElem?_eq_of_addScope hF).trans hold, rfl, List.Subset.refl _⟩

end Frame

namespace Law

def framed : Law := ⟨fun _ => True, Frame, fun _ _ => True, fun _ _ => True, fun _ => True⟩

theorem framed_closed : framed.Closed where
  refl _ _ := .of_scopes_eq rfl
  trans := .trans
  allows_mono _ _ := trivial
  knows_mono _ _ := trivial
  child _ _ := trivial
  null _ := trivial
  bool _ _ := trivial
  builtin _ _ := trivial
  int _ := trivial
  wrap _ _ := trivial
  textLength _ _ := trivial
  arrayLength _ _ := trivial
  fn _ _ := trivial
  body _ := trivial
  returned _ := trivial
  find _ _ _ := trivial
  element _ _ _ _ := trivial
  bind _ _ _ _ _ := ⟨trivial, .put _ _ _ _⟩
  enter _ _ _ _ := ⟨⟨trivial, trivial⟩, fun _ => .of_addScope⟩
  addText _ _ _ := ⟨⟨trivial, .of_scopes_eq rfl⟩, trivial⟩
  addArray _ _ _ := ⟨⟨trivial, .of_scopes_eq rfl⟩, trivial⟩
  setText _ _ _ _ := ⟨trivial, .of_scopes_eq rfl⟩
  setArray _ _ _ _ := ⟨trivial, .of_scopes_eq rfl⟩
  print _ _ _ := ⟨trivial, .of_scopes_eq rfl⟩

end Law

namespace Eval

theorem frame_of_eval (settings : Settings) (frames : Nat) (E : ScopeId) (n : Node) (s : State) :
    Frame E s (eval settings frames E n s).2 :=
  (Law.keeps_eval Law.framed_closed settings frames ⟨trivial, trivial⟩ trivial).next.2

/-- Evaluating a node leaves all scopes but its own as they were and takes no name and no outer scope from any.  The
body of a function is evaluated in a scope of its own; so it leaves all scopes before it as they were, the one that
calls it and the one in which the function was defined among them. -/
theorem scopes_framed (settings : Settings) (frames : Nat) :
    (∀ (E : ScopeId) (n : Node) (s : State), Frame E s (eval settings frames E n s).2) ∧
    ∀ (params : List String) (body : Node) (captured : ScopeId) (vs : List Value) (s : State), ∀ F < s.scopes.size,
      (eval settings frames s.scopes.size body (s.addScope (localScope captured params vs))).2.scopes[F]? =
        s.scopes[F]? := by
  refine ⟨frame_of_eval settings frames, fun params body captured vs s F hF => ?_⟩
  exact (frame_of_eval settings frames s.scopes.size body _).getElem?_eq_of_addScope hF

end Eval
end Scriptlet
