import Scriptlet.Proofs.Evaluation.Mirroring

/-! What programs print.  An evaluation adds to the output and never looks at it; so whatever was printed before, it gives
the same value, makes the same changes and prints the same. -/
namespace Scriptlet

namespace State
variable {s s' : State} {scope : ScopeId}

def preceded (text : String) (s : State) : State := { s with printed := text ++ s.printed }

def quiet (s : State) : State := { s with printed := "" }

@[simp] theorem printed_preceded (s : State) (text : String) : (s.preceded text).printed = text ++ s.printed := rfl

theorem print_preceded (s : State) (text line : String) : (s.preceded text).print line = (s.print line).preceded text := by
  simp [preceded, print, String.append_assoc]

theorem veil_preceded (text : String) : Veil (preceded text) :=
  ⟨fun _ => rfl, fun _ => rfl, fun _ _ => rfl, fun _ _ => rfl, fun _ _ _ => rfl, fun _ _ _ => rfl,
    fun s line => print_preceded s text line⟩

theorem find?_eq_of_scopes_eq (h : s'.scopes = s.scopes) (name : String) : s'.find? scope name = s.find? scope name := by
  induction scope using Nat.strongRecOn with
  | _ scope ih =>
    rw [find?, find?, h]
    cases s.scopes[scope]? with
    | none => rfl
    | some found =>
      obtain ⟨outer, bindings⟩ := found
      cases outer with
      | none => rfl
      | some o =>
        by_cases hlt : o < scope
        · simp [hlt, ih o hlt]
        · simp [hlt]

theorem lookup_preceded (s : State) (text name : String) : (s.preceded text).lookup scope name = s.lookup scope name := by
  have hscopes : (s.preceded text).scopes = s.scopes := rfl
  rw [lookup, lookup, find?_eq_of_scopes_eq hscopes]

end State

namespace Eval
open Run State
variable {settings : Settings} {scope : ScopeId} {n : Node} {s : State}

theorem mirrors_preceded_eval (text : String) (frames : Nat) :
    Mirrors (preceded text) (eval settings frames scope n) (eval settings frames scope n) s := by
  induction frames, scope, n using eval.induct settings generalizing s with
  | case1 frames scope n hfits ih =>
    have hbind (s' : State) (name : String) (v : Value) :
        Mirrors (preceded text) (bindName scope name v) (bindName scope name v) s' :=
      mirrors_bind (mirrors_find rfl) fun _ _ _ => mirrors_change rfl
    rw [eval_of_fits hfits]
    exact mirrors_node (veil_preceded text) (fun name => lookup_preceded s text name) hbind (fun _ _ _ _ => rfl)
      (fun n' _ _ => ih scope n') fun F n' _ _ => ih F n'
  | case2 frames scope n hfull =>
    rw [eval_of_not_fits hfull]
    rfl

/-- What was printed before makes no difference to a program. -/
theorem run_preceded (settings : Settings) (scope : ScopeId) (n : Node) (s : State) (text : String) :
    run settings scope n (s.preceded text) = ((run settings scope n s).1, (run settings scope n s).2.preceded text) := by
  have heval : eval settings settings.frames scope n (s.preceded text) =
      ((eval settings settings.frames scope n s).1, (eval settings settings.frames scope n s).2.preceded text) :=
    mirrors_preceded_eval text settings.frames
  unfold run
  rw [heval]
  rcases eval settings settings.frames scope n s with ⟨why | v, s'⟩
  · cases why <;> rfl
  · rfl

end Eval
end Scriptlet
