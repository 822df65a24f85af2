import Scriptlet.Proofs.Evaluation.Answering
import Scriptlet.Proofs.Evaluation.Depth

/-! Evaluation never fails by itself.  Programs that were parsed, run one after the other, get errors of their own only:
whatever an operation looks for in the state is there, every item that is selected exists, every node has a rule.  Only
a full call stack or somebody who interrupts it can cut an evaluation short. -/
namespace Scriptlet
open Relation (ReflTransGen)

def Stop.OfProgram : Stop → Prop
  | returned _ => True
  | failed e => ¬ e.isInternal
  | _ => False

namespace Run
variable {s s' : State} {why : Stop}

theorem ofProgram_of_use {v : Value} (hv : Builtin.Plain s v) (h : use v s = (.error why, s')) : why.OfProgram := by
  obtain ⟨-, ⟨u, -, rfl⟩ | ⟨e, he, rfl⟩⟩ := use_eq_error h
  · trivial
  · exact hv e he

theorem select_eq_error {α : Type} {kind : SequenceKind} {items : List α} {position : Int}
    (h : select kind items position s = (.error why, s')) :
    ((items.length : Int) ≤ position ∧ why = .failed (.indexBeyond kind items.length position)) ∨
      (position < -(items.length : Int) ∧ why = .failed (.reverseIndexBeyond kind items.length position)) := by
  unfold select at h
  by_cases hbeyond : (items.length : Int) ≤ position
  · rw [if_pos hbeyond] at h
    exact .inl ⟨hbeyond, (fail_eq_error h).1⟩
  · rw [if_neg hbeyond] at h
    by_cases hneg : position < 0
    · rw [if_pos hneg] at h
      by_cases hreverse : (items.length : Int) < -position
      · rw [if_pos hreverse] at h
        exact .inr ⟨by omega, (fail_eq_error h).1⟩
      · -- Counted from the back, the place is less than the length.
        rw [if_neg hreverse] at h
        have hnone : items.reverse[(-position - 1).toNat]? = none := (find_eq_error.mp h).1
        simp only [List.getElem?_eq_none_iff, List.length_reverse] at hnone
        omega
    · rw [if_neg hneg] at h
      have hnone : items[position.toNat]? = none := (find_eq_error.mp h).1
      simp only [List.getElem?_eq_none_iff] at hnone
      omega

theorem ofProgram_of_select {α : Type} {kind : SequenceKind} {items : List α} {position : Int}
    (h : select kind items position s = (.error why, s')) : why.OfProgram := by
  rcases select_eq_error h with ⟨-, rfl⟩ | ⟨-, rfl⟩ <;> simp [Stop.OfProgram, EvalError.isInternal]

end Run

namespace Operator

theorem not_isInternal_of_applyPrefix {op : Operator} {v : Value} {e : EvalError} (h : op.applyPrefix v = .error e) :
    ¬ e.isInternal := by
  unfold applyPrefix at h
  split at h <;> cases h <;> simp [EvalError.isInternal]

theorem not_isInternal_of_applyInts {op : Operator} {a b : Int} {e : EvalError} (h : op.applyInts a b = .error e) :
    ¬ e.isInternal := by
  cases op with
  | slash =>
    by_cases hb : b = 0
    · simp only [applyInts, hb, if_true] at h
      cases h
      simp [EvalError.isInternal]
    · simp [applyInts, hb] at h
  | _ => cases h <;> simp [EvalError.isInternal]

theorem not_isInternal_of_applyInfix {op : Operator} {v w : Value} {e : EvalError} (h : op.applyInfix v w = .error e) :
    ¬ e.isInternal := by
  unfold applyInfix at h
  split at h
  · exact not_isInternal_of_applyInts h
  · cases op <;> cases h <;> simp [EvalError.isInternal]
  · cases h
    simp [EvalError.isInternal]

end Operator

namespace Eval
open Run Law

section
variable {E : ScopeId} {s s' : State} {why : Stop}

theorem ofProgram_of_truth {blame : ValueType → EvalError} {v : Value} (hblame : ∀ t, ¬ (blame t).isInternal)
    (h : truth blame v s = (.error why, s')) : why.OfProgram := by
  cases v with
  | bool b => cases h
  | _ =>
    obtain ⟨rfl, -⟩ := fail_eq_error h
    exact hblame _

theorem ofProgram_of_asPosition {v : Value} (h : asPosition v s = (.error why, s')) : why.OfProgram := by
  cases v with
  | int n => cases h
  | _ =>
    obtain ⟨rfl, -⟩ := fail_eq_error h
    simp [Stop.OfProgram, EvalError.isInternal]

theorem ofProgram_of_blame {settings : Settings} {room : Nat} {n : Node} {e : EvalError} (he : ¬ e.isInternal)
    (h : blame settings room n e s = (.error why, s')) : why.OfProgram ∨ why = .tooDeep := by
  rcases bind_eq_error.mp h with hmake | ⟨_, _, -, hfail⟩
  · exact .inr (makeText_eq_error.mp hmake).2.1
  · obtain ⟨rfl, -⟩ := fail_eq_error hfail
    exact .inl he

theorem ofProgram_of_postfixOp {settings : Settings} {room : Nat} {op : Operator} {e : Node} (hE : s.Has (.scope E))
    (h : postfixOp settings room E op e s = (.error why, s')) : why.OfProgram ∨ why = .tooDeep := by
  have hfail {e : EvalError} (he : ¬ e.isInternal) (h : (fail e : Run Value) s = (.error why, s')) : why.OfProgram := by
    obtain ⟨rfl, -⟩ := fail_eq_error h
    exact he
  cases hstep : op.postfixStep? with
  | none =>
    simp only [postfixOp, hstep] at h
    exact ofProgram_of_blame (by simp [EvalError.isInternal]) h
  | some step =>
    simp only [postfixOp, hstep] at h
    cases e with
    | ident name =>
      have hlook : look (·.lookup E name) s = (.ok (s.lookup E name), s) := rfl
      simp only at h
      rw [bind_of_ok hlook] at h
      cases hv : s.lookup E name with
      | int n =>
        rw [hv] at h
        rcases bind_eq_error.mp h with hbind | ⟨_, _, -, hdone⟩
        · have hnone := (bindName_eq_error hbind).1
          have hlt : E < s.scopes.size := hE
          simp [hlt] at hnone
        · cases hdone
      | _ =>
        rw [hv] at h
        exact .inl (hfail (by simp [EvalError.isInternal]) h)
    | _ => exact ofProgram_of_blame (by simp [EvalError.isInternal]) h

theorem ofProgram_of_arrayItem {id : ArrayId} {v : Value} (h : safe.Holds s) (hid : safe.Allows s (.arr id))
    (hitem : (do let n ← asPosition v; use (← select .array (← array id) n)) s = (.error why, s')) :
    why.OfProgram := by
  rcases bind_eq_error.mp hitem with hposition | ⟨n, s₁, hposition, hitem⟩
  · exact ofProgram_of_asPosition hposition
  have hs : s = s₁ := by
    cases v <;> cases hposition
    rfl
  subst hs
  rcases bind_eq_error.mp hitem with harray | ⟨vs, s₁, harray, hitem⟩
  · have hnone : s.arrays[id]? = none := (find_eq_error.mp harray).1
    have hlt : id < s.arrays.size := safe_supports hid (.array id) (by simp [Value.refs])
    simp [hlt] at hnone
  obtain ⟨hvs, rfl⟩ := find_eq_ok.mp harray
  rcases bind_eq_error.mp hitem with hselect | ⟨u, s₁, hselect, huse⟩
  · exact ofProgram_of_select hselect
  have hmem : u ∈ vs := ((keeps_select (E := 0) safe_closed h).of_ok hselect).2
  exact ofProgram_of_use (Builtin.plain_of_element h hid hvs hmem) huse

theorem ofProgram_of_stringItem {cs : List Char} {v : Value}
    (hitem : (do let n ← asPosition v; newText [← select .string cs n]) s = (.error why, s')) : why.OfProgram := by
  rcases bind_eq_error.mp hitem with hposition | ⟨n, s₁, -, hitem⟩
  · exact ofProgram_of_asPosition hposition
  rcases bind_eq_error.mp hitem with hselect | ⟨c, s₂, -, hnew⟩
  · exact ofProgram_of_select hselect
  · cases hnew

end

namespace Visit

/-- A visit to a loop has gone through as many rounds of it as anybody waits for, and then the state is `s`. -/
def Lingers (settings : Settings) (w : Visit) (s : State) : Prop :=
  ∃ c b, w.node = .whileStmt c b ∧
    Rounds (do truth .whileCondition (← inside settings w.frames w.node w.scope c))
      (inside settings w.frames w.node w.scope b) settings.patience w.state s

/-- What a visit may come to.  If something from outside cuts it short, this happens to a visit inside it. -/
inductive Ends (settings : Settings) (w : Visit) : Except Stop Value × State → Prop
  | value {v s} (hdata : v.isData) (hv : s.Supports v) : Ends settings w (.ok v, s)
  | returned {v s} (hdata : v.isData) (hv : s.Supports v) : Ends settings w (.error (.returned v), s)
  | failed {e s} (he : ¬ e.isInternal) : Ends settings w (.error (.failed e), s)
  | tooDeep {u s} (hu : ReflTransGen (Enters settings) w u) (hout : u.RunsOut settings s) :
      Ends settings w (.error .tooDeep, s)
  | interrupted {u s} (hu : ReflTransGen (Enters settings) w u) (hlong : u.Lingers settings s) :
      Ends settings w (.error .interrupted, s)

def Divides (settings : Settings) (w : Visit) (a b : Int) (s : State) : Prop :=
  ∃ (l r : Node) (s₁ : State), w.node = .infixOp .slash l r ∧ Fits settings w.frames w.node ∧
    inside settings w.frames w.node w.scope l w.state = (.ok (.int a), s₁) ∧
      inside settings w.frames w.node w.scope r s₁ = (.ok (.int b), s)

end Visit

section
variable {settings : Settings} {w : Visit} {s s' : State} {why : Stop}

/-- What a visit in a safe state stops with by itself is of the program, unless something from outside cuts it short. -/
theorem Raises.ofProgram (h : safe.Ready w.scope w.state) (hn : safe.Admits w.node) (hraises : Raises settings
      (roomFor settings w.frames w.node) (inside settings w.frames w.node) w.scope w.node w.state why s') :
    why.OfProgram ∨ (why = .interrupted ∧ w.Lingers settings s') ∨ why = .tooDeep := by
  obtain ⟨frames, E, n, s⟩ := w
  dsimp only at h hn hraises
  have hinner := obeys_inside safe_closed settings frames n
  have hchild {c : Node} (hc : c ∈ n.children) : safe.Admits c := safe_closed.child hn hc
  have hpart {c : Node} {v : Value} {s s' : State} (hs : safe.Ready E s) (hc : c ∈ n.children)
      (hv : inside settings frames n E c s = (.ok v, s')) : safe.Ready E s' ∧ safe.Allows s' v := by
    obtain ⟨hnext, hallows⟩ := (hinner E c s hs (hchild hc)).of_ok hv
    exact ⟨hs.next safe_closed hnext, hallows⟩
  have hown {e : EvalError} (he : ¬ e.isInternal) : (Stop.failed e).OfProgram := he
  cases hraises with
  | rounds hrounds => exact .inr (.inl ⟨rfl, _, _, rfl, hrounds⟩)
  | returned _ => exact .inl trivial
  | builtinName _ _ | notInvocable _ _ _ | argumentCount _ _ | notIndexable _ _ _ =>
    exact .inl (hown (by simp [EvalError.isInternal]))
  | noScope he hscope =>
    have hlt : E < s'.scopes.size := (hpart h (by simp [Node.children]) he).1.knows.1.1
    simp [hlt] at hscope
  | ident huse => exact .inl (ofProgram_of_use (Builtin.plain_of_allows (allows_lookup safe_closed h)) huse)
  | prefixOp _ hop => exact .inl (hown (Operator.not_isInternal_of_applyPrefix hop))
  | infixOp _ _ hop => exact .inl (hown (Operator.not_isInternal_of_applyInfix hop))
  | postfixOp hop =>
    exact (ofProgram_of_postfixOp h.knows.1.1 hop).imp_right .inr
  | ifThen _ hv | ifElse _ hv | whileCondition _ _ _ hv =>
    exact .inl (ofProgram_of_truth (by simp [EvalError.isInternal]) hv)
  | @builtin f b args vs _ _ s₁ s₂ _ hf hargs hb =>
    have h₁ := (hpart h (by simp [Node.children]) hf).1
    have hadmits (e : Node) (he : e ∈ args) : safe.Admits e := hchild (by simp [Node.children, he])
    obtain ⟨hnext, hallows⟩ := (keeps_nodes safe_closed hinner h₁ hadmits).of_ok hargs
    have hanswers : Run.Answers _ _ s₂ (b.call settings (roomFor settings frames (.call f args)) vs) :=
      Builtin.answers_call hnext.1 b hallows
    rcases hanswers with ⟨v, s₃, hok, hplain⟩ | ⟨-, s₃, hfull⟩
    · rw [bind_of_ok hok] at hb
      exact .inl (ofProgram_of_use hplain hb)
    · obtain ⟨heq, -⟩ := Prod.mk.inj ((bind_of_error hfull).symm.trans hb)
      exact .inr (.inr (Except.error.inj heq).symm)
  | @arrayItem t i id v _ _ s₁ s₂ _ ht hi hitem =>
    obtain ⟨h₁, hid⟩ := hpart h (by simp [Node.children]) ht
    obtain ⟨hnext, -⟩ := (hinner E i s₁ h₁ (hchild (by simp [Node.children]))).of_ok hi
    exact .inl (ofProgram_of_arrayItem hnext.1 (safe_closed.allows_mono hnext.2 hid) hitem)
  | @noText t i id _ _ ht hcs =>
    have hallows := (hpart h (by simp [Node.children]) ht).2
    have hlt : id < s'.texts.size := safe_supports hallows (.text id) (by simp [Value.refs])
    simp [hlt] at hcs
  | stringItem _ _ _ hitem => exact .inl (ofProgram_of_stringItem hitem)
  | token => cases hn.2.here
  | @signal _ F n' v _ _ s₁ s₂ _ hcatches hstop huse =>
    obtain ⟨hF, hn'⟩ := ready_of_catches safe_closed hinner h hn hcatches
    have hv := ((hinner F n' s₁ hF hn').of_returned hstop).2
    exact .inl (ofProgram_of_use (Builtin.plain_of_allows hv) huse)

theorem outcome_of_divides {a b : Int} (h : w.Divides settings a b s) : w.outcome settings =
    (if b = 0 then .error (.failed (.divisionByZero a b)) else .ok (.int (wrap (a.tdiv b))), s) := by
  obtain ⟨l, r, s₁, hnode, hfits, hl, hr⟩ := h
  have hop : w.outcome settings = ofExcept (Operator.applyInfix .slash (.int a) (.int b)) s := by
    rw [Visit.outcome, eval_of_fits hfits]
    rw [hnode] at hl hr ⊢
    exact (bind_of_ok hl).trans (bind_of_ok hr)
  rw [hop]
  by_cases hb : b = 0 <;>
    simp [Operator.applyInfix, Operator.applyInts, hb, ofExcept, fail, stop, pure, quotient_eq_tdiv]

theorem ends_outcome (h : safe.Ready w.scope w.state) (hn : safe.Admits w.node) :
    w.Ends settings (w.outcome settings) := by
  have hkeeps := keeps_outcome settings safe_closed h hn
  rcases hout : w.outcome settings with ⟨why | v, s⟩
  · obtain ⟨u, hu, hraises⟩ := Visit.exists_raises hout
    obtain ⟨hready, hadmits⟩ := ready_of_enters safe_closed h hn hu
    cases hraises with
    | tooDeep hfull => exact .tooDeep hu (.node hfull)
    | byNode hfits hraises =>
      rcases hraises.ofProgram hready hadmits with hwhy | ⟨rfl, hlong⟩ | rfl
      · cases why with
        | returned v =>
          have hv := (hkeeps.of_returned hout).2
          exact .returned (safe_isData hv) (safe_supports hv)
        | failed e => exact .failed hwhy
        | _ => cases hwhy
      · exact .interrupted hu hlong
      · exact .tooDeep hu (Visit.runsOut_of_raises (.byNode hfits hraises))
  · have hv := (hkeeps.of_ok hout).2
    exact .value (safe_isData hv) (safe_supports hv)

/-- A run answers no errors but those of the program and the one about a full call stack. -/
theorem run_eq_error {E : ScopeId} {n : Node} (h : safe.Ready E s) (hn : safe.Admits n) {e : EvalError}
    (hrun : run settings E n s = (.value (.error e), s')) :
    ¬ e.isInternal ∨ e = .nesting ∧ eval settings settings.frames E n s = (.error .tooDeep, s') := by
  let w : Visit := ⟨settings.frames, E, n, s⟩
  have hends : w.Ends settings (eval settings settings.frames E n s) := ends_outcome h hn
  unfold run at hrun
  generalize eval settings settings.frames E n s = outcome at hends hrun ⊢
  cases hends with
  | value hdata _ | returned hdata _ =>
    obtain ⟨heq, -⟩ := Prod.mk.inj hrun
    cases heq
    cases hdata
  | failed he =>
    obtain ⟨heq, rfl⟩ := Prod.mk.inj hrun
    cases heq
    exact .inl he
  | tooDeep _ _ =>
    obtain ⟨heq, rfl⟩ := Prod.mk.inj hrun
    cases heq
    exact .inr ⟨rfl, rfl⟩
  | interrupted _ _ =>
    obtain ⟨heq, -⟩ := Prod.mk.inj hrun
    cases heq

end

/-- In every state that parsed programs get to, all references lead to objects that are there and a search for a name
ends.  No evaluation fails by itself: it gives data, stops as the program says, is interrupted or finds the call stack
full, which running a program turns into an error. -/
theorem parsed_programs_safe (settings : Settings) {w : Visit} (hw : w.Occurs settings Program.Parsed) :
    (∀ s ∈ [w.state, (w.outcome settings).2], s.WellFormed ∧ s.Has (.scope w.scope) ∧
      ∀ (E : ScopeId) (scope : Scope), s.scopes[E]? = some scope → ∀ name,
        s.find? E name = (scope.bindings.get? name).or (scope.outer.bind fun o => s.find? o name)) ∧
      w.Ends settings (w.outcome settings) ∧
      (∀ b args s, w.Applies settings (.builtin b) args s → ∀ room,
        s.WellFormed ∧
          ((∃ v s', b.call settings room args s = (.ok v, s') ∧ ∀ e, v = .error e → ¬ e.isInternal) ∨
            Builtin.Crowded settings.stack room args s ∧ ∃ s', b.call settings room args s = (.error .tooDeep, s'))) ∧
      (∀ a b s, w.Divides settings a b s → w.outcome settings =
        (if b = 0 then .error (.failed (.divisionByZero a b)) else .ok (.int (wrap (a.tdiv b))), s)) ∧
      (∀ s, eval settings settings.frames w.scope w.node w.state = (.error .tooDeep, s) →
        run settings w.scope w.node w.state = (.value (.error .nesting), s)) ∧
      ∀ e s, run settings w.scope w.node w.state = (.value (.error e), s) → ¬ e.isInternal ∨
        e = .nesting ∧ eval settings settings.frames w.scope w.node w.state = (.error .tooDeep, s) := by
  obtain ⟨h, hn⟩ := ready_of_occurs safe_closed safe_start (fun _ => safe_admits) hw
  have hafter := h.next safe_closed (keeps_outcome settings safe_closed h hn).next
  refine ⟨fun s hs => ?_, ends_outcome h hn, fun b args s happlies room => ?_, fun a b s => outcome_of_divides,
    fun s hdeep => ?_, fun e s hrun => run_eq_error h hn hrun⟩
  · have hready : safe.Ready w.scope s := by
      rcases (by simpa using hs : s = w.state ∨ s = (w.outcome settings).2) with rfl | rfl
      · exact h
      · exact hafter
    have hwell : s.WellFormed := hready.holds.1.1
    exact ⟨hwell, hready.knows.1.1, fun E scope hscope => hwell.find?_eq hscope⟩
  · obtain ⟨hready, -, hargs⟩ := ready_of_applies safe_closed h hn happlies
    exact ⟨hready.holds.1.1, Builtin.answers_call hready.holds b hargs⟩
  · unfold run
    rw [hdeep]

def beforeFirst : Visit :=
  ⟨9, 0, .program [.exprStmt (.index (.array [.int 1]) (.prefixOp .minus (.int 2)))], .initial⟩

set_option maxRecDepth 2000 in
theorem beforeFirst_safe :
    beforeFirst.Occurs ⟨.null, .flat, 9, 9⟩ Program.Parsed ∧
      beforeFirst.outcome ⟨.null, .flat, 9, 9⟩ =
        (.error (.failed (.reverseIndexBeyond .array 1 (-2))), State.initial.addArray [.int 1]) ∧
      beforeFirst.Ends ⟨.null, .flat, 9, 9⟩ (beforeFirst.outcome ⟨.null, .flat, 9, 9⟩) := by
  have hparsed : Program.Parsed beforeFirst.node := ⟨"[1][-2]", by cbv⟩
  have hw : beforeFirst.Occurs ⟨.null, .flat, 9, 9⟩ Program.Parsed := ⟨.initial, _, .start, hparsed, .refl⟩
  exact ⟨hw, by cbv, (parsed_programs_safe ⟨.null, .flat, 9, 9⟩ hw).2.1⟩

end Eval
end Scriptlet
