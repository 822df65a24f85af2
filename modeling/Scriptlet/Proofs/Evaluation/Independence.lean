import Mathlib
import Scriptlet.Proofs.Evaluation.Confinement
import Scriptlet.Proofs.Evaluation.Hiding
import Scriptlet.Proofs.Evaluation.Reached

/-! Lexical scoping.  Whatever an evaluation cannot reach from its scope has no influence on it.  So a function sees the
scope in which it was defined and its arguments, and never the scope from which it is called. -/
namespace Scriptlet
namespace Eval
open Run State

variable {settings : Settings} {E F : ScopeId} {n : Node} {s s' : State}

/-- An evaluation mirrors itself when the bindings of a scope are hidden that it cannot reach. -/
theorem mirrors_hide_eval (frames : Nat) (h : (Law.avoiding E).Ready F s) :
    Mirrors (hide E) (eval settings frames F n) (eval settings frames F n) s := by
  induction frames, F, n using eval.induct settings generalizing s with
  | case1 frames F n hfits ih =>
    rw [eval_of_fits hfits]
    have hclosed := Law.avoiding_closed E
    have hinner := Law.obeys_inside hclosed settings frames n
    have hne {F : ScopeId} {s : State} (h : (Law.avoiding E).Ready F s) : E ≠ F := by
      rintro rfl
      exact h.knows .refl
    refine mirrors_node (veil_hide E) (fun name => lookup_hide h.knows) (fun s' => mirrors_hide_bindName (hne h))
      (fun scope n' s' hcatches => ?_) (fun n' s' hpasses => ?_) fun F' n' s' hcatches => ?_
    · exact mirrors_hide_newScope (hne (Law.ready_of_catches hclosed hinner h trivial hcatches).1) scope
    · exact ih _ _ (Law.ready_of_passes hclosed hinner h trivial hpasses).1
    · exact ih _ _ (Law.ready_of_catches hclosed hinner h trivial hcatches).1
  | case2 frames F n hfull =>
    rw [eval_of_not_fits hfull]
    rfl

/-- Two runs of a step give the same, and leave states that differ in the bindings of one scope at most. -/
def Alike {α : Type} (E : ScopeId) (outcome outcome' : α × State) : Prop :=
  outcome.1 = outcome'.1 ∧ outcome.2.AgreeBut E outcome'.2

theorem alike_of_mirrors {α : Type} {r : Run α} (hs : s.AgreeBut E s') (h : Mirrors (hide E) r r s)
    (h' : Mirrors (hide E) r r s') : Alike E (r s) (r s') := by
  have hhide : s.hide E = s'.hide E := agreeBut_iff_hide_eq.mp hs
  have heq : ((r s).1, (r s).2.hide E) = ((r s').1, (r s').2.hide E) := by
    rw [← h, ← h', hhide]
  obtain ⟨hvalue, hstate⟩ := Prod.mk.inj heq
  exact ⟨hvalue, agreeBut_iff_hide_eq.mpr hstate⟩

/-- What a call of a function does once its arguments have these values. -/
def enter (settings : Settings) (frames : Nat) (params : List String) (body : Node) (captured : ScopeId)
    (vs : List Value) : Run Value := do
  let callScope ← newScope (localScope captured params vs)
  endReturn (eval settings frames callScope body)

theorem outcome_of_applies {w : Visit} {params : List String} {body : Node} {captured : ScopeId} {vs : List Value}
    (happlies : w.Applies settings (.fn params body captured) vs s) (hlength : params.length = vs.length) :
    w.outcome settings = enter settings (framesFor settings w.frames w.node body) params body captured vs s := by
  obtain ⟨f, es, s₁, hcall, hfits, hf, hargs⟩ := happlies
  have hes : params.length = es.length := hlength.trans (length_of_each hargs)
  have hcalled : callFunction (inside settings w.frames w.node) w.scope params body captured es s₁ =
      enter settings (framesFor settings w.frames w.node body) params body captured vs s := by
    simp only [callFunction, hes, ne_eq, not_true_eq_false, if_false]
    exact bind_of_ok hargs
  rw [Visit.outcome, eval_of_fits hfits]
  rw [hcall] at hf hcalled ⊢
  exact (bind_of_ok hf).trans hcalled

section
variable (hs : s.AgreeBut E s')
include hs

theorem alike_of_not_lt {α : Type} (r : Run α) (hE : ¬ E < s.scopes.size) : Alike E (r s) (r s') := by
  obtain rfl := hs.eq_of_le (Nat.le_of_not_lt hE)
  exact ⟨rfl, .refl E _⟩

theorem alike_eval (frames : Nat) (hF : ¬ s.Reaches (.scope F) (.scope E)) :
    Alike E (eval settings frames F n s) (eval settings frames F n s') := by
  by_cases hE : E < s.scopes.size
  · have hready : (Law.avoiding E).Ready F s := ⟨hE, hF⟩
    have hE' : E < s'.scopes.size := hs.size_eq ▸ hE
    have hready' : (Law.avoiding E).Ready F s' := ⟨hE', fun hreach => hF (hs.reaches hreach)⟩
    exact alike_of_mirrors hs (mirrors_hide_eval frames hready) (mirrors_hide_eval frames hready')
  · exact alike_of_not_lt hs _ hE

theorem alike_run (hF : ¬ s.Reaches (.scope F) (.scope E)) : Alike E (run settings F n s) (run settings F n s') := by
  have heval : Alike E (eval settings settings.frames F n s) (eval settings settings.frames F n s') :=
    alike_eval hs settings.frames hF
  unfold run
  generalize eval settings settings.frames F n s = outcome at heval ⊢
  generalize eval settings settings.frames F n s' = outcome' at heval ⊢
  obtain ⟨result, t⟩ := outcome
  obtain ⟨result', t'⟩ := outcome'
  obtain ⟨hresult, ht⟩ := heval
  obtain rfl : result = result' := hresult
  rcases result with why | v
  · cases why <;> exact ⟨rfl, ht⟩
  · exact ⟨rfl, ht⟩

theorem alike_enter {params : List String} {body : Node} {captured : ScopeId} {vs : List Value} (frames : Nat)
    (hlength : params.length = vs.length) (hcaptured : ¬ s.Reaches (.scope captured) (.scope E))
    (hvs : ∀ v ∈ vs, ∀ r ∈ v.refs, ¬ s.Reaches r (.scope E)) :
    Alike E (enter settings frames params body captured vs s) (enter settings frames params body captured vs s') := by
  by_cases hE : E < s.scopes.size
  · have hmirrors {s : State} (hE : E < s.scopes.size) (hcaptured : ¬ s.Reaches (.scope captured) (.scope E))
        (hvs : ∀ v ∈ vs, ∀ r ∈ v.refs, ¬ s.Reaches r (.scope E)) :
        Mirrors (hide E) (enter settings frames params body captured vs)
          (enter settings frames params body captured vs) s := by
      have hfn : (Law.avoiding E).Allows s (.fn params body captured) :=
        Law.avoiding_allows_of_refs_eq_singleton rfl hcaptured
      have hready := ((Law.avoiding_closed E).enter (E := E) hE hfn hvs hlength).1
      refine mirrors_bind (mirrors_hide_newScope (Nat.ne_of_lt hE) _) fun F t hnew => mirrors_endReturn ?_
      obtain ⟨heq, rfl⟩ := Prod.mk.inj hnew
      obtain rfl := Except.ok.inj heq
      exact mirrors_hide_eval frames hready
    refine alike_of_mirrors hs (hmirrors hE hcaptured hvs) (hmirrors (hs.size_eq ▸ hE) ?_ ?_)
    · exact fun hreach => hcaptured (hs.reaches hreach)
    · exact fun v hv r hr hreach => hvs v hv r hr (hs.reaches hreach)
  · exact alike_of_not_lt hs _ hE

end

/-- Take two states that differ in the bindings of one scope.  An evaluation that cannot reach the scope gives the same
in both, prints the same and leaves states that differ there only.  So does a function, from wherever it is called, if
neither the scope of its definition nor its arguments lead to the scope. -/
theorem unreachable_never_matters (settings : Settings) {E : ScopeId} {s s' : State} (hs : s.AgreeBut E s') :
    (∀ frames F n, ¬ s.Reaches (.scope F) (.scope E) →
      Alike E (eval settings frames F n s) (eval settings frames F n s')) ∧
    (∀ F n, ¬ s.Reaches (.scope F) (.scope E) → Alike E (run settings F n s) (run settings F n s')) ∧
    (∀ frames params body captured vs, params.length = vs.length → ¬ s.Reaches (.scope captured) (.scope E) →
      (∀ v ∈ vs, ∀ r ∈ v.refs, ¬ s.Reaches r (.scope E)) →
        Alike E (enter settings frames params body captured vs s) (enter settings frames params body captured vs s')) ∧
    ∀ (w : Visit) params body captured vs, w.Applies settings (.fn params body captured) vs s →
      params.length = vs.length →
        w.outcome settings = enter settings (framesFor settings w.frames w.node body) params body captured vs s := by
  refine ⟨fun frames F n hF => alike_eval hs frames hF, fun F n hF => alike_run hs hF, ?_, ?_⟩
  · intro frames params body captured vs hlength hcaptured hvs
    exact alike_enter hs frames hlength hcaptured hvs
  · intro w params body captured vs happlies hlength
    exact outcome_of_applies happlies hlength

def shadowing (n : Int) : State :=
  { State.initial with scopes := #[⟨none, [("x", .int 1)]⟩, ⟨some 0, [("x", .int n)]⟩] }

/-- A function that reads the variable finds the global one, from wherever it is called. -/
theorem shadowing_never_matters :
    (shadowing 5).AgreeBut 1 (shadowing 9) ∧ ¬ (shadowing 5).Reaches (.scope 0) (.scope 1) ∧
      Alike 1 (enter ⟨.null, .flat, 9, 9⟩ 3 [] (.ident "x") 0 [] (shadowing 5))
        (enter ⟨.null, .flat, 9, 9⟩ 3 [] (.ident "x") 0 [] (shadowing 9)) ∧
      (enter ⟨.null, .flat, 9, 9⟩ 3 [] (.ident "x") 0 [] (shadowing 9)).1 = .ok (.int 1) := by
  have hs : (shadowing 5).AgreeBut 1 (shadowing 9) := by
    refine ⟨rfl, rfl, rfl, fun F hF => ?_, rfl⟩
    match F, hF with
    | 0, _ => rfl
    | F + 2, _ => rfl
  have hunreachable : ¬ (shadowing 5).Reaches (.scope 0) (.scope 1) := by
    intro h
    have hnone (r : Ref) : ¬ (shadowing 5).Refers (.scope 0) r := by
      intro hr
      cases hr with
      | outer hscope ho =>
        obtain rfl := Option.some.inj hscope
        cases ho
      | @binding _ scope name v _ hscope hv hr =>
        obtain rfl := Option.some.inj hscope
        have hmem : (name, v) ∈ [("x", Value.int 1)] := Table.mem_of_get?_eq_some hv
        simp only [List.mem_singleton, Prod.mk.injEq] at hmem
        rw [hmem.2] at hr
        cases hr
    have heq := eq_of_reaches hnone h
    cases heq
  have h := unreachable_never_matters ⟨.null, .flat, 9, 9⟩ hs
  exact ⟨hs, hunreachable, h.2.2.1 3 [] (.ident "x") 0 [] rfl hunreachable (by simp), by cbv⟩

end Eval
end Scriptlet
