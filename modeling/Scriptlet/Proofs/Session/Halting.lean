import Scriptlet.Proofs.Evaluation.Frame
import Scriptlet.Proofs.Evaluation.Raising
import Scriptlet.Proofs.Evaluation.Rendering
import Scriptlet.Proofs.Evaluation.Signals
import Scriptlet.Proofs.Session.Outcome

/-! What units leave behind.  A unit that is no program leaves the state as it was; an evaluation that fails leaves it as it
was when it failed.  Either way the names that were bound stay bound, and all references lead to objects that are there. -/
namespace Scriptlet
open Relation (ReflTransGen)

structure State.Usable (s : State) : Prop where
  wellFormed : s.WellFormed
  clean : s.Clean
  global : s.Has (.scope State.globalScope)

namespace State.Usable
variable {s : State}

theorem initial : State.initial.Usable := ⟨.initial, .initial, Nat.zero_lt_one⟩

theorem printed (h : s.Usable) (text : String) : Usable { s with printed := text } :=
  ⟨h.wellFormed.of_same rfl rfl ⟨Nat.le_refl _, Nat.le_refl _, Nat.le_refl _⟩, ⟨h.clean.bindings, h.clean.elements⟩,
    h.global⟩

theorem run (h : s.Usable) (settings : Settings) (n : Node) : (Eval.run settings State.globalScope n s).2.Usable := by
  have hreferential := (Law.keeps_eval Law.referential_closed settings settings.frames ⟨h.wellFormed, h.global⟩
    (n := n) trivial).next
  have hdata := (Law.keeps_eval Law.onlyData_closed settings settings.frames (E := State.globalScope) ⟨h.clean, trivial⟩
    (n := n) trivial).next
  rw [Eval.run_state]
  exact ⟨hreferential.1, hdata.1, hreferential.2.has h.global⟩

end State.Usable

theorem Frame.isSome_find? {E F : ScopeId} {s s' : State} {name : String} (h : Frame E s s')
    (hbound : (s.find? F name).isSome) : (s'.find? F name).isSome := by
  induction F using Nat.strongRecOn with
  | _ F ih =>
    rw [State.find?] at hbound ⊢
    cases hscope : s.scopes[F]? with
    | none => simp [hscope] at hbound
    | some scope =>
      obtain ⟨outer, bindings⟩ := scope
      obtain ⟨⟨outer', bindings'⟩, hscope', houter, hkeys⟩ := h.keeps F _ hscope
      obtain rfl : outer' = outer := houter
      simp only [hscope] at hbound
      simp only [hscope']
      cases hget' : bindings'.get? name with
      | some v => rfl
      | none =>
        have hnone : ¬(bindings'.get? name).isSome := by simp [hget']
        have hget : bindings.get? name = none := by
          simpa using mt (fun hbound => Table.isSome_get?.mpr (hkeys (Table.isSome_get?.mp hbound))) hnone
        rw [hget] at hbound
        cases outer' with
        | none => exact hbound
        | some o =>
          by_cases hlt : o < F
          · simp only [if_pos hlt] at hbound ⊢
            exact ih o hlt hbound
          · simp [hlt] at hbound

namespace Eval
variable {settings : Settings} {scope : ScopeId} {n : Node} {s s' : State}

/-- A run that answers an error, or none at all, was stopped. -/
theorem exists_stop_of_run (hclean : s.Clean) {result : Result} (hrun : run settings scope n s = (result, s'))
    (hresult : ∀ v, (∀ e, v ≠ .error e) → result ≠ .value v) :
    ∃ why, eval settings settings.frames scope n s = (.error why, s') ∧ ∀ v, why ≠ .returned v := by
  have hstate : (eval settings settings.frames scope n s).2 = s' := by rw [← run_state, hrun]
  have hdata {v : Value} (hv : v.isData) : (run settings scope n s).1 ≠ .value v := by
    rw [hrun]
    refine hresult v ?_
    rintro e rfl
    cases hv
  rcases heval : eval settings settings.frames scope n s with ⟨why | v, s₁⟩
  · refine ⟨why, by rw [← hstate, heval], ?_⟩
    rintro v rfl
    have hv := isData_of_outcome_returned (w := ⟨settings.frames, scope, n, s⟩) hclean heval
    exact hdata hv (by simp only [run, heval])
  · have hv := isData_of_outcome_ok (w := ⟨settings.frames, scope, n, s⟩) hclean heval
    exact absurd (by simp only [run, heval]) (hdata hv)

end Eval

namespace Session
open Eval Text

section
variable (settings : Settings) (unit : String) (s : State)

/-- Where the run of a unit that fails stops. -/
inductive Halted : State → Prop
  | unread {why} (hparse : Program.parseWithin settings.room unit = .error why) : Halted s
  | undrawn {n} (hparse : Program.parseWithin settings.room unit = .ok n)
      (hfull : settings.frames < n.frames settings.stack.writingNodes) : Halted s
  /-- An evaluation on the way raises what stops all. -/
  | stopped {n w why s'} (hparse : Program.parseWithin settings.room unit = .ok n)
      (hstops : eval settings settings.frames State.globalScope n s = (.error why, s')) (hwhy : ∀ v, why ≠ .returned v)
      (hw : ReflTransGen (Visit.Enters settings) ⟨settings.frames, State.globalScope, n, s⟩ w)
      (hraises : w.Raises settings why s') : Halted s'
  /-- All is evaluated, but there is no room to show the value. -/
  | unshown {n v frames s'} (hparse : Program.parseWithin settings.room unit = .ok n)
      (hrun : Eval.run settings State.globalScope n s = (.value v, s'))
      (hframes : s'.frames? settings.stack v = some frames) (hfull : settings.frames < frames) : Halted s'

end

namespace Outcome
variable {mode : Mode} {settings : Settings} {style : Style} {unit : String} {s s' : State}
  {result : Except Failure String}

/-- Either nothing is run, or the state is that of the program once it has run. -/
theorem state_eq (h : Outcome mode settings style unit s result s') :
    s' = s ∨ ∃ n, s' = (Eval.run settings State.globalScope n s).2 := by
  cases h with
  | tokens | refused | unread | tree | undrawn => exact .inl rfl
  | failed _ _ hrun | interrupted _ _ hrun | value _ _ hrun | unshown _ _ hrun => exact .inr ⟨_, by rw [hrun]⟩

theorem frame (h : Outcome mode settings style unit s result s') : Frame State.globalScope s s' := by
  rcases h.state_eq with rfl | ⟨n, rfl⟩
  · exact .of_scopes_eq rfl
  · rw [run_state]
    exact frame_of_eval settings settings.frames State.globalScope n s

theorem usable (h : Outcome mode settings style unit s result s') (hs : s.Usable) : s'.Usable := by
  rcases h.state_eq with rfl | ⟨n, rfl⟩
  · exact hs
  · exact hs.run settings n

theorem halted {failure : Failure} (h : Outcome mode settings style unit s (.error failure) s') (hs : s.Usable) :
    Halted settings unit s s' := by
  have hstopped {n : Node} {result : Result} (hparse : Program.parseWithin settings.room unit = .ok n)
      (hrun : Eval.run settings State.globalScope n s = (result, s'))
      (hresult : ∀ v, (∀ e, v ≠ .error e) → result ≠ .value v) : Halted settings unit s s' := by
    obtain ⟨why, hstops, hwhy⟩ := exists_stop_of_run hs.clean hrun hresult
    obtain ⟨w, hw, hraises⟩ := Visit.exists_raises (v := ⟨settings.frames, State.globalScope, n, s⟩) hstops
    exact .stopped hparse hstops hwhy hw hraises
  cases h with
  | refused _ hparse | unread _ hparse => exact .unread hparse
  | undrawn _ hparse hfull => exact .undrawn hparse hfull
  | failed _ hparse hrun => exact hstopped hparse hrun fun v hv heq => hv _ (Result.value.inj heq).symm
  | interrupted _ hparse hrun =>
    refine hstopped hparse hrun ?_
    rintro v - ⟨⟩
  | unshown _ hparse hrun hv htext =>
    obtain ⟨hwell, hanswers⟩ := Law.answers_of_run settings Law.referential_closed ⟨hs.wellFormed, hs.global⟩ trivial
    rw [hrun] at hwell hanswers
    obtain ⟨e, rfl⟩ | hsupports := hanswers _ rfl
    · exact absurd rfl (hv e)
    -- Every value has a text, so only room can be missing.
    rcases (hwell.renders hsupports).textOf_eq settings.stack settings.frames with
      ⟨text, -, hmade⟩ | ⟨⟨frames, hframes, hfull⟩, -⟩
    · rw [hmade] at htext
      cases htext
    · exact .unshown hparse hrun hframes hfull

end Outcome
end Session
end Scriptlet
