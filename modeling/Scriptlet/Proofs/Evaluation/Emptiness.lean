import Mathlib
import Scriptlet.Proofs.Evaluation.Mirroring
import Scriptlet.Proofs.Evaluation.Reached

/-! Whether anything shows of the policy for empty sequences.  The policy is for calls of `first` and `rest` on an empty
sequence.  A run that makes no such call is the same under all policies, evaluation by evaluation. -/
namespace Scriptlet
open Relation (ReflTransGen)

namespace Builtin
open Run
variable {b : Builtin} {args : List Value} {holder : Holder} {s : State}

/-- A call that asks an empty sequence for its first item, or for the rest of them. -/
def Asks (b : Builtin) (args : List Value) (s : State) : Prop :=
  (b = .first ∨ b = .rest) ∧ ∃ holder : Holder, args = [holder.value] ∧ holder.Current s ∧ holder.size = 0

theorem exists_item (h : holder.size ≠ 0) : (∃ id t c cs, holder = .text id t ∧ t.toList = c :: cs) ∨
    ∃ id v vs, holder = .array id (v :: vs) := by
  cases holder with
  | text id t =>
    have ht : t.toList ≠ [] := by simpa [Holder.size] using h
    obtain ⟨c, cs, hcs⟩ := List.exists_cons_of_ne_nil ht
    exact .inl ⟨id, t, c, cs, rfl, hcs⟩
  | array id vs =>
    obtain ⟨v, vs, rfl⟩ := List.exists_cons_of_ne_nil fun hnil : vs = [] => h (congrArg List.length hnil)
    exact .inr ⟨id, v, vs, rfl⟩

theorem firstOf_congr (h : holder.size ≠ 0) (p p' : OnEmpty) : firstOf p holder = firstOf p' holder := by
  rcases exists_item h with ⟨id, t, c, cs, rfl, ht⟩ | ⟨id, v, vs, rfl⟩
  · simp only [firstOf, ht]
  · rfl

theorem restOf_congr (h : holder.size ≠ 0) (p p' : OnEmpty) : restOf p holder = restOf p' holder := by
  rcases exists_item h with ⟨id, t, c, cs, rfl, ht⟩ | ⟨id, v, vs, rfl⟩
  · simp only [restOf, ht]
  · rfl

theorem onSequence_congr {which : String} {v : Value} {go go' : Holder → Run Value}
    (h : ∀ holder : Holder, v = holder.value → holder.Current s → go holder s = go' holder s) :
    onSequence which v go s = onSequence which v go' s := by
  cases v with
  | str id =>
    refine bind_congr rfl fun t s' hstring => ?_
    obtain ⟨ht, rfl⟩ := string_eq_ok.mp hstring
    exact h (.text id t) rfl ht
  | arr id =>
    refine bind_congr rfl fun vs s' harray => ?_
    obtain ⟨hvs, rfl⟩ := find_eq_ok.mp harray
    exact h (.array id vs) rfl hvs
  | _ => rfl

theorem one_congr {go go' : Value → Run Value} (h : ∀ v, args = [v] → go v s = go' v s) :
    one args go s = one args go' s := by
  unfold one
  split
  · exact h _ rfl
  · rfl

/-- The policy shows in no other calls. -/
theorem call_congr_of_not_asks (h : ¬ b.Asks args s) (settings : Settings) (room : Nat) (p : OnEmpty) :
    b.call settings room args s = b.call { settings with onEmpty := p } room args s := by
  have hsize (hb : b = .first ∨ b = .rest) (v : Value) (hargs : args = [v]) (holder : Holder) (hv : v = holder.value)
      (hcurrent : holder.Current s) : holder.size ≠ 0 :=
    fun hzero => h ⟨hb, holder, hv ▸ hargs, hcurrent, hzero⟩
  cases b with
  | first =>
    refine one_congr fun v hargs => onSequence_congr fun holder hv hcurrent => ?_
    rw [firstOf_congr (hsize (.inl rfl) v hargs holder hv hcurrent) settings.onEmpty p]
  | rest =>
    refine one_congr fun v hargs => onSequence_congr fun holder hv hcurrent => ?_
    rw [restOf_congr (hsize (.inr rfl) v hargs holder hv hcurrent) settings.onEmpty p]
  | _ => rfl

end Builtin

namespace Eval
open Run

section
variable {settings : Settings} {room : Nat} {inner : ScopeId → Node → Run Value} {F : ScopeId} {n : Node} {s : State}

theorem node_congr_of_call (p : OnEmpty) (h : ∀ f es b args s₁ s₂, n = .call f es →
    inner F f s = (.ok (.builtin b), s₁) → each (inner F) es s₁ = (.ok args, s₂) →
    b.call settings room args s₂ = b.call { settings with onEmpty := p } room args s₂) :
    node settings room inner F n s = node { settings with onEmpty := p } room inner F n s := by
  cases n with
  | call f es =>
    refine bind_congr rfl fun v s₁ hf => ?_
    cases v with
    | builtin b =>
      refine bind_congr rfl fun args s₂ hargs => ?_
      exact bind_congr (h f es b args s₁ s₂ rfl hf hargs) fun _ _ _ => rfl
    | _ => rfl
  | _ => rfl

end

namespace Visit

def SparesEmpty (settings : Settings) (v : Visit) : Prop :=
  ∀ w b args s, ReflTransGen (Enters settings) v w → w.Applies settings (.builtin b) args s → ¬ b.Asks args s

namespace SparesEmpty
variable {settings : Settings} {v w : Visit}

theorem of_enters (h : v.SparesEmpty settings) (hw : ReflTransGen (Enters settings) v w) : w.SparesEmpty settings :=
  fun w' b args s hw' => h w' b args s (hw.trans hw')

theorem eval_eq (p : OnEmpty) {frames : Nat} {F : ScopeId} {n : Node} {s : State}
    (h : SparesEmpty settings ⟨frames, F, n, s⟩) :
    eval settings frames F n s = eval { settings with onEmpty := p } frames F n s := by
  induction frames, F, n using eval.induct settings generalizing s with
  | case1 frames F n hfits ih =>
    have hcall : Eval.node settings (roomFor settings frames n) (inside settings frames n) F n s =
        Eval.node { settings with onEmpty := p } (roomFor settings frames n) (inside settings frames n) F n s := by
      refine node_congr_of_call p fun f es b args s₁ s₂ hn hf hargs => ?_
      refine Builtin.call_congr_of_not_asks (h _ b args s₂ .refl ?_) settings _ p
      exact ⟨f, es, s₁, hn, hfits, hf, hargs⟩
    have hfits' : Fits { settings with onEmpty := p } frames n := hfits
    rw [eval_of_fits hfits, eval_of_fits hfits', hcall]
    refine node_congr (fun n' s' hpart => ih _ _ (h.of_enters (.single (.inl ?_)))) fun F' n' s' hpart => ?_
    · exact .part hfits (Passes.of_congr (fun _ _ _ => rfl) hpart rfl)
    · exact ih _ _ (h.of_enters (.single (.inr (.part hfits hpart))))
  | case2 frames F n hfull =>
    have hfull' : ¬Fits { settings with onEmpty := p } frames n := hfull
    rw [eval_of_not_fits hfull, eval_of_not_fits hfull']

theorem part_eq (p : OnEmpty) {frames : Nat} {F : ScopeId} {n : Node} {s : State}
    (h : SparesEmpty settings ⟨frames, F, n, s⟩) (hfits : Fits settings frames n) (n' : Node) (s' : State)
    (hpart : Passes settings (inside settings frames n) F n s n' s') :
    inside settings frames n F n' s' = inside { settings with onEmpty := p } frames n F n' s' :=
  eval_eq p (h.of_enters (.single (.inl (.part hfits hpart))))

theorem enters_of_enters {p : OnEmpty} (h : v.SparesEmpty settings)
    (hw : Enters { settings with onEmpty := p } v w) : Enters settings v w := by
  cases hw with
  | inl hforwards =>
    cases hforwards with
    | part hfits hpart => exact .inl (.part hfits (Passes.of_congr (h.part_eq p hfits) hpart rfl))
  | inr hdelimits =>
    cases hdelimits with
    | part hfits hpart =>
      refine .inr (.part hfits (Catches.of_congr (h.part_eq p hfits) (fun F' n' s' hbody => ?_) hpart))
      exact eval_eq p (h.of_enters (.single (.inr (.part hfits hbody))))

theorem reaches_of_reaches {p : OnEmpty} (h : v.SparesEmpty settings)
    (hw : ReflTransGen (Enters { settings with onEmpty := p }) v w) : ReflTransGen (Enters settings) v w := by
  induction hw with
  | refl => exact .refl
  | tail _ hlast ih => exact ih.tail ((h.of_enters ih).enters_of_enters hlast)

theorem under (p : OnEmpty) (h : v.SparesEmpty settings) : v.SparesEmpty { settings with onEmpty := p } := by
  intro w b args s hw happlies
  have hw := h.reaches_of_reaches hw
  obtain ⟨frames, F, n, s₀⟩ := w
  obtain ⟨f, es, s₁, rfl, hfits, hf, hargs⟩ := happlies
  have hparts := (h.of_enters hw).part_eq p hfits
  have hf := (hparts f s₀ .callee).trans hf
  refine h _ b args s hw ⟨f, es, s₁, rfl, hfits, hf, ?_⟩
  refine (each_congr [] fun before e after vs s' hes hbefore => ?_).trans hargs
  rw [List.append_nil] at hes
  subst hes
  exact hparts e s' (.builtinArg hf hbefore)

end SparesEmpty

end Visit

/-- A run in which no call of `first` or `rest` gets an empty sequence is the same under every policy: it gives the same
value, prints the same and leaves all bindings and objects as they are under the other one, and it makes the same
evaluations on its way. -/
theorem policy_shows_only_on_empty {settings : Settings} {scope : ScopeId} {n : Node} {s : State}
    (h : Visit.SparesEmpty settings ⟨settings.frames, scope, n, s⟩) (p : OnEmpty) :
    run { settings with onEmpty := p } scope n s = run settings scope n s ∧
      eval { settings with onEmpty := p } settings.frames scope n s = eval settings settings.frames scope n s ∧
      ∀ w, ReflTransGen (Visit.Enters { settings with onEmpty := p }) ⟨settings.frames, scope, n, s⟩ w ↔
        ReflTransGen (Visit.Enters settings) ⟨settings.frames, scope, n, s⟩ w := by
  have heval := h.eval_eq p
  refine ⟨?_, heval.symm, fun w => ⟨h.reaches_of_reaches, fun hw => ?_⟩⟩
  · rw [run, run, heval]
  · exact (h.under p).reaches_of_reaches hw

/-- The rest of a text of two letters is not affected. -/
theorem restOfText_under_empty : (callOfText .rest "ab").SparesEmpty ⟨.null, .flat, 9, 9⟩ ∧
    run ⟨.empty, .flat, 9, 9⟩ 0 (callOfText .rest "ab").node .initial =
      run ⟨.null, .flat, 9, 9⟩ 0 (callOfText .rest "ab").node .initial ∧
    (run ⟨.null, .flat, 9, 9⟩ 0 (callOfText .rest "ab").node .initial).1 = .value (.str 1) ∧
    (run ⟨.null, .flat, 9, 9⟩ 0 (callOfText .rest "ab").node .initial).2.strings = #["ab", "b"] := by
  have hspares : (callOfText .rest "ab").SparesEmpty ⟨.null, .flat, 9, 9⟩ := by
    rintro w b args s hw happlies ⟨-, holder, hargs, hcurrent, hsize⟩
    obtain ⟨-, rfl, rfl⟩ := eq_of_applies_callOfText hw happlies
    cases holder with
    | text id t =>
      obtain rfl : 0 = id := by simpa [Builtin.Holder.value] using hargs
      rw [Builtin.Holder.Current, State.texts_addString] at hcurrent
      have ht : ['a', 'b'] = t.toList := by simpa [State.initial, State.texts] using hcurrent
      rw [Builtin.Holder.size, ← String.length_toList, ← ht] at hsize
      cases hsize
    | array id vs => simp [Builtin.Holder.value] at hargs
  exact ⟨hspares, (policy_shows_only_on_empty hspares .empty).1, by cbv, by cbv⟩

example : (run ⟨.null, .flat, 9, 9⟩ 0 (.call (.ident "first") [.str ""]) .initial).1 = .value .null ∧
    (run ⟨.empty, .flat, 9, 9⟩ 0 (.call (.ident "first") [.str ""]) .initial).1 = .value (.str 1) := by cbv

end Eval
end Scriptlet
