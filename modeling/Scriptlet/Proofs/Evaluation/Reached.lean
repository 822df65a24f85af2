import Scriptlet.Proofs.Evaluation.Lawful

/-! States that programs reach which run one after the other in the global scope, and what a law that holds at the start
says of them. -/
namespace Scriptlet
open Relation (ReflTransGen)

namespace Eval
open Run

/-- States after some programs, each of which is of the kind `P`.  Lines may be printed in between. -/
inductive Ran (settings : Settings) (P : Node → Prop) : State → Prop
  | start : Ran settings P .initial
  | program {s : State} {n : Node} (h : Ran settings P s) (hn : P n) :
      Ran settings P (run settings State.globalScope n s).2
  | printed {s : State} (h : Ran settings P s) (line : String) : Ran settings P (s.print line)

namespace Visit

def Occurs (settings : Settings) (P : Node → Prop) (w : Visit) : Prop :=
  ∃ (s : State) (n : Node), Ran settings P s ∧ P n ∧
    ReflTransGen (Enters settings) ⟨settings.frames, State.globalScope, n, s⟩ w

/-- A visit to a call gives these values for what is called and for the arguments, and then the state is `s`. -/
def Applies (settings : Settings) (w : Visit) (called : Value) (args : List Value) (s : State) : Prop :=
  ∃ (f : Node) (es : List Node) (s₁ : State), w.node = .call f es ∧ Fits settings w.frames w.node ∧
    inside settings w.frames w.node w.scope f w.state = (.ok called, s₁) ∧
      each (inside settings w.frames w.node w.scope) es s₁ = (.ok args, s)

end Visit

section
variable {settings : Settings} {inner : ScopeId → Node → Run Value} {scope : ScopeId} {n c : Node} {s s' : State}

theorem mem_children_of_passes (h : Passes settings inner scope n s c s') : c ∈ n.children := by
  cases h <;> simp [Node.children]

theorem children_ne_nil_of_enters {v w : Visit} (h : Visit.Enters settings v w) : v.node.children ≠ [] := by
  rcases h with ⟨⟨_, h⟩⟩ | ⟨⟨_, h⟩⟩ <;> cases h <;> simp [Node.children]

theorem eval_builtin {b : Builtin} {frames : Nat} (hfits : Fits settings frames (.ident b.name)) :
    eval settings frames scope (.ident b.name) s = (.ok (.builtin b), s) := by
  rw [eval_of_fits hfits]
  simp only [node, ident, Builtin.ofName?_name]
  rfl

end

def callOfText (b : Builtin) (t : String) : Visit := ⟨9, 0, .call (.ident b.name) [.str t], .initial⟩

section
variable {b : Builtin} {t : String} {w : Visit}

theorem children_eq_nil_of_enters (h : Visit.Enters ⟨.null, .flat, 9, 9⟩ (callOfText b t) w) : w.node.children = [] := by
  rcases h with ⟨⟨_, hpasses⟩⟩ | ⟨⟨_, hcatches⟩⟩
  · have hchild := mem_children_of_passes hpasses
    simp only [Node.children, List.mem_cons, List.not_mem_nil, or_false] at hchild
    rcases hchild with rfl | rfl <;> rfl
  · cases hcatches with
    | body hf => cases (eval_builtin (by decide : 0 < 8)).symm.trans hf

theorem eq_of_applies_callOfText {called : Value} {args : List Value} {s : State}
    (hw : ReflTransGen (Visit.Enters ⟨.null, .flat, 9, 9⟩) (callOfText b t) w)
    (happlies : w.Applies ⟨.null, .flat, 9, 9⟩ called args s) :
    called = .builtin b ∧ args = [.str 0] ∧ s = State.initial.addString t := by
  obtain ⟨f, es, s₁, hcall, -, hf, hes⟩ := happlies
  rcases ReflTransGen.cases_head hw with rfl | ⟨u, hu, hw⟩
  · cases hcall
    obtain ⟨hcalled, rfl⟩ := Prod.mk.inj ((eval_builtin (by decide : 0 < 8)).symm.trans hf)
    have hargs : each (inside ⟨.null, .flat, 9, 9⟩ 9 (callOfText b t).node 0) [.str t] .initial =
        (.ok [.str 0], State.initial.addString t) :=
      each_cons_of_ok (congrFun (eval_of_fits (by decide : 0 < 8)) _) rfl
    obtain ⟨hvalues, rfl⟩ := Prod.mk.inj (hargs.symm.trans hes)
    exact ⟨(Except.ok.inj hcalled).symm, (Except.ok.inj hvalues).symm, rfl⟩
  · -- From a node without parts the way goes no further, and such a node is no call.
    have hnil := children_eq_nil_of_enters hu
    rcases ReflTransGen.cases_head hw with rfl | ⟨u', hu', -⟩
    · simp [hcall, Node.children] at hnil
    · exact absurd hnil (children_ne_nil_of_enters hu')

end

end Eval

namespace Law
open Eval Run
variable {L : Law} {settings : Settings} {P : Node → Prop} {s : State} {w : Visit} (hL : L.Closed)
include hL

section
variable (hstart : L.Ready State.globalScope .initial) (hP : ∀ n, P n → L.Admits n)
include hstart hP

theorem ready_of_ran (h : Ran settings P s) : L.Ready State.globalScope s := by
  induction h with
  | start => exact hstart
  | program _ hn ih =>
    have hnext := (keeps_eval hL settings settings.frames ih (hP _ hn)).next
    rw [run_state]
    exact ih.next hL hnext
  | printed _ line ih => exact ih.next hL (hL.print _ line ih.holds)

theorem ready_of_occurs (h : w.Occurs settings P) : L.Ready w.scope w.state ∧ L.Admits w.node := by
  obtain ⟨s, n, hran, hn, hw⟩ := h
  have hready := ready_of_ran hL hstart hP hran
  exact ready_of_enters hL hready (hP n hn) hw

end

variable (settings)

theorem keeps_outcome (h : L.Ready w.scope w.state) (hn : L.Admits w.node) :
    L.Keeps w.scope L.Allows w.state (w.outcome settings) := keeps_eval hL settings w.frames h hn

omit hL in
/-- A whole run answers an error or a value that the law allows, if nobody interrupts it. -/
theorem answers_of_keeps {scope : ScopeId} {n : Node}
    (h : L.Keeps scope L.Allows s (eval settings settings.frames scope n s)) :
    L.Holds (run settings scope n s).2 ∧ ∀ v, (run settings scope n s).1 = .value v →
      (∃ e, v = .error e) ∨ L.Allows (run settings scope n s).2 v := by
  have hholds : L.Holds (run settings scope n s).2 := by
    rw [run_state]
    exact h.next.1
  refine ⟨hholds, fun v hv => ?_⟩
  rcases eval_of_run_value hv with heval | heval | herror
  · exact .inr (h.of_ok heval).2
  · exact .inr (h.of_returned heval).2
  · exact .inl herror

theorem answers_of_run {scope : ScopeId} {n : Node} (h : L.Ready scope s) (hn : L.Admits n) :
    L.Holds (run settings scope n s).2 ∧ ∀ v, (run settings scope n s).1 = .value v →
      (∃ e, v = .error e) ∨ L.Allows (run settings scope n s).2 v :=
  answers_of_keeps settings (keeps_eval hL settings settings.frames h hn)

variable {settings}

theorem ready_of_applies {called : Value} {args : List Value} (h : L.Ready w.scope w.state) (hn : L.Admits w.node)
    (happlies : w.Applies settings called args s) :
    L.Ready w.scope s ∧ L.Allows s called ∧ ∀ v ∈ args, L.Allows s v := by
  obtain ⟨f, es, s₁, hcall, -, hf, hargs⟩ := happlies
  have hinner := obeys_inside hL settings w.frames w.node
  have hadmits {c : Node} (hc : c ∈ Node.children (.call f es)) : L.Admits c := hL.child (hcall ▸ hn) hc
  obtain ⟨hnext, hcalled⟩ := (hinner w.scope f w.state h (hadmits (by simp [Node.children]))).of_ok hf
  have h₁ := h.next hL hnext
  have hes (e : Node) (he : e ∈ es) : L.Admits e := hadmits (by simp [Node.children, he])
  obtain ⟨hnext', hvs⟩ := (keeps_nodes hL hinner h₁ hes).of_ok hargs
  exact ⟨h₁.next hL hnext', hL.allows_mono hnext'.2 hcalled, hvs⟩

end Law
end Scriptlet
