import Mathlib
import Scriptlet.Proofs.Evaluation.Mirroring
import Scriptlet.Proofs.Evaluation.Raising
import Scriptlet.Proofs.Evaluation.Reached
import Scriptlet.Proofs.Evaluation.Stopping

/-! The bound on nesting.  It shows in an evaluation only if a visit inside finds the call stack full; then that visit is
where the evaluation stops, and whatever was bound, made and printed before stays.  A loop evaluates its condition and its
body at one and the same depth in all rounds. -/
namespace Scriptlet
open Relation (ReflTransGen)

namespace Eval
open Run

section
variable {scope : ScopeId} {v : Value}

theorem stopsBy_fail {α : Type} (e : EvalError) : StopsBy (· ≠ .tooDeep) (fail e : Run α) := stopsBy_stop (by simp)

theorem stopsBy_use (v : Value) : StopsBy (· ≠ .tooDeep) (use v) := by
  intro s why s' h
  obtain ⟨-, ⟨u, -, rfl⟩ | ⟨e, -, rfl⟩⟩ := use_eq_error h <;> simp

theorem stopsBy_truth (blame : ValueType → EvalError) (v : Value) : StopsBy (· ≠ .tooDeep) (truth blame v) := by
  cases v with
  | bool b => exact stopsBy_pure b
  | _ => exact stopsBy_fail _

theorem stopsBy_asPosition (v : Value) : StopsBy (· ≠ .tooDeep) (asPosition v) := by
  cases v with
  | int n => exact stopsBy_pure n
  | _ => exact stopsBy_fail _

theorem stopsBy_select {α : Type} (kind : SequenceKind) (items : List α) (position : Int) :
    StopsBy (· ≠ .tooDeep) (select kind items position) := by
  unfold select
  split
  · exact stopsBy_fail _
  · split
    · split
      · exact stopsBy_fail _
      · exact stopsBy_find (by simp) _
    · exact stopsBy_find (by simp) _

theorem stopsBy_bindName (scope : ScopeId) (name : String) (v : Value) :
    StopsBy (· ≠ .tooDeep) (bindName scope name v) := (stopsBy_find (by simp) _).bind fun _ => stopsBy_change _

end

/-- With less room a step does what it does with more, unless the call stack is full. -/
def UpToRoom {α : Type} (r r' : Run α) (s : State) : Prop := (r s).1 ≠ .error .tooDeep → r' s = r s

section
variable {α β : Type} {s : State} {stack : Stack} {room room' : Nat} (hroom : room ≤ room')

theorem upToRoom_bind {r r' : Run α} {f f' : α → Run β} (hr : UpToRoom r r' s)
    (hf : ∀ a s', r s = (.ok a, s') → UpToRoom (f a) (f' a) s') : UpToRoom (r >>= f) (r' >>= f') s := by
  intro hfull
  rcases heq : r s with ⟨why | a, s'⟩
  · rw [bind_of_error heq] at hfull ⊢
    have hwhy : why ≠ .tooDeep := fun h => hfull (congrArg Except.error h)
    exact bind_of_error ((hr (by simpa [heq] using hwhy)).trans heq)
  · rw [bind_of_ok heq] at hfull ⊢
    have heq' : r' s = (.ok a, s') := (hr (by rw [heq]; simp)).trans heq
    rw [bind_of_ok heq']
    exact hf a s' heq hfull

theorem upToRoom_refl (r : Run α) : UpToRoom r r s := fun _ => rfl

include hroom

theorem upToRoom_makeText (frames : Nat) (t : String) : UpToRoom (makeText room frames t) (makeText room' frames t) s := by
  intro hfull
  by_cases hle : frames ≤ room
  · rw [makeText, makeText, if_pos hle, if_pos (Nat.le_trans hle hroom)]
  · rw [makeText, if_neg hle] at hfull
    exact absurd rfl hfull

theorem upToRoom_textOf (v : Value) : UpToRoom (textOf stack room v) (textOf stack room' v) s :=
  upToRoom_bind (upToRoom_refl _) fun frames _ _ =>
    upToRoom_bind (upToRoom_refl _) fun t _ _ => upToRoom_makeText hroom frames t

theorem upToRoom_plainText (v : Value) :
    UpToRoom (Builtin.plainText stack room v) (Builtin.plainText stack room' v) s := by
  unfold Builtin.plainText
  split
  · exact upToRoom_refl _
  · exact upToRoom_textOf hroom _

theorem upToRoom_printAll (vs : List Value) :
    UpToRoom (Builtin.printAll stack room vs) (Builtin.printAll stack room' vs) s := by
  induction vs generalizing s with
  | nil => exact upToRoom_refl _
  | cons v vs ih =>
    have hline : UpToRoom (Builtin.printLine stack room v) (Builtin.printLine stack room' v) s :=
      upToRoom_bind (upToRoom_textOf hroom v) fun _ _ _ => upToRoom_refl _
    exact upToRoom_bind hline fun _ _ _ => ih

omit hroom in
theorem upToRoom_onSequence {which : String} {v : Value} {go go' : Builtin.Holder → Run Value}
    (h : ∀ holder s', UpToRoom (go holder) (go' holder) s') :
    UpToRoom (Builtin.onSequence which v go) (Builtin.onSequence which v go') s := by
  cases v with
  | str id => exact upToRoom_bind (upToRoom_refl _) fun t s' _ => h (.text id t) s'
  | arr id => exact upToRoom_bind (upToRoom_refl _) fun vs s' _ => h (.array id vs) s'
  | _ => exact upToRoom_refl _

omit hroom in
theorem upToRoom_two {args : List Value} {go go' : Value → Value → Run Value}
    (h : ∀ v w, UpToRoom (go v w) (go' v w) s) : UpToRoom (Builtin.two args go) (Builtin.two args go') s := by
  unfold Builtin.two
  split
  · exact h _ _
  · exact upToRoom_refl _

theorem upToRoom_call (b : Builtin) (settings : Settings) (args : List Value) :
    UpToRoom (b.call settings room args) (b.call settings room' args) s := by
  cases b with
  | print =>
    show UpToRoom (if args.isEmpty then Builtin.arity 0 ">= 1" else Builtin.printAll settings.stack room args)
      (if args.isEmpty then Builtin.arity 0 ">= 1" else Builtin.printAll settings.stack room' args) s
    split
    · exact upToRoom_refl _
    · exact upToRoom_printAll hroom args
  | push | append =>
    refine upToRoom_two fun v w => upToRoom_onSequence fun holder s' => ?_
    cases holder with
    | text id t => exact upToRoom_bind (upToRoom_plainText hroom w) fun _ _ _ => upToRoom_refl _
    | array id vs => exact upToRoom_refl _
  | _ => exact upToRoom_refl _

theorem upToRoom_postfixOp (settings : Settings) (scope : ScopeId) (op : Operator) (operand : Node) :
    UpToRoom (postfixOp settings room scope op operand) (postfixOp settings room' scope op operand) s := by
  have hblame (e : EvalError) : UpToRoom (blame settings room operand e) (blame settings room' operand e) s :=
    upToRoom_bind (upToRoom_makeText hroom _ _) fun _ _ _ => upToRoom_refl _
  cases hstep : op.postfixStep? with
  | none =>
    simp only [postfixOp, hstep]
    exact hblame _
  | some step =>
    simp only [postfixOp, hstep]
    cases operand with
    | ident name => exact upToRoom_refl _
    | _ => exact hblame _

/-- Of all nodes only calls and complaints about operands make texts. -/
theorem upToRoom_node (settings : Settings) (inner : ScopeId → Node → Run Value) (scope : ScopeId) (n : Node) :
    UpToRoom (node settings room inner scope n) (node settings room' inner scope n) s := by
  cases n with
  | postfixOp op operand => exact upToRoom_postfixOp hroom settings scope op operand
  | call f args =>
    refine upToRoom_bind (upToRoom_refl _) fun v s₁ _ => ?_
    cases v with
    | builtin b =>
      refine upToRoom_bind (upToRoom_refl _) fun vs s₂ _ => ?_
      exact upToRoom_bind (upToRoom_call hroom b settings vs) fun _ _ _ => upToRoom_refl _
    | _ => exact upToRoom_refl _
  | _ => exact upToRoom_refl _

end

theorem eval_frames (settings : Settings) (d frames : Nat) (scope : ScopeId) (n : Node) :
    eval { settings with frames := d } frames scope n = eval settings frames scope n := by
  have hnode (room : Nat) (inner : ScopeId → Node → Run Value) (scope : ScopeId) (n : Node) :
      node { settings with frames := d } room inner scope n = node settings room inner scope n := by
    cases n <;> rfl
  induction frames, scope, n using eval.induct settings with
  | case1 frames scope n hfits ih =>
    have hfits' : Fits { settings with frames := d } frames n := hfits
    rw [eval_of_fits hfits, eval_of_fits hfits', hnode]
    exact congrArg (node settings _ · scope n) (funext fun scope => funext fun part => ih scope part)
  | case2 frames scope n hfull =>
    have hfull' : ¬Fits { settings with frames := d } frames n := hfull
    rw [eval_of_not_fits hfull, eval_of_not_fits hfull']

namespace Visit
variable {settings : Settings} {v w : Visit} {s : State}

/-- The call stack is found full before a visit is over. -/
def Exhausts (settings : Settings) (v : Visit) : Prop := (v.outcome settings).1 = .error .tooDeep

/-- A visit finds the call stack full, and stops in a state: there is no room for its node, for the text of an argument of
the builtin function that it calls, or for that of the operand that it complains about. -/
inductive RunsOut (settings : Settings) (w : Visit) : State → Prop
  | node (hfull : ¬Fits settings w.frames w.node) : RunsOut settings w w.state
  | arguments {b args s s'} (happlies : w.Applies settings (.builtin b) args s)
      (hfull : b.call settings (roomFor settings w.frames w.node) args s = (.error .tooDeep, s')) : RunsOut settings w s'
  | operand {op e} (hnode : w.node = .postfixOp op e) (hfits : Fits settings w.frames w.node)
      (hblames : op.postfixStep? = none ∨ ∀ x, e ≠ .ident x)
      (hfull : roomFor settings w.frames w.node < e.frames settings.stack.writingNodes) : RunsOut settings w w.state

end Visit

section
variable {settings : Settings} {room : Nat} {scope : ScopeId} {n : Node} {s s' : State} {v w : Visit}

theorem blame_eq_tooDeep {e : EvalError} : blame settings room n e s = (.error .tooDeep, s') ↔
    room < n.frames settings.stack.writingNodes ∧ s = s' := by
  constructor
  · intro h
    rcases bind_eq_error.mp h with hmake | ⟨_, _, -, hfail⟩
    · obtain ⟨hfull, -, rfl⟩ := makeText_eq_error.mp hmake
      exact ⟨Nat.lt_of_not_le hfull, rfl⟩
    · cases (fail_eq_error hfail).1
  · rintro ⟨hfull, rfl⟩
    exact bind_of_error (makeText_eq_error.mpr ⟨Nat.not_le_of_lt hfull, rfl, rfl⟩)

theorem postfixOp_eq_tooDeep {op : Operator} {e : Node} : postfixOp settings room scope op e s = (.error .tooDeep, s') ↔
    (op.postfixStep? = none ∨ ∀ x, e ≠ .ident x) ∧ room < e.frames settings.stack.writingNodes ∧ s = s' := by
  cases hstep : op.postfixStep? with
  | none => simp [postfixOp, hstep, blame_eq_tooDeep]
  | some step =>
    cases e with
    | ident name =>
      have hstops : StopsBy (· ≠ .tooDeep) (postfixOp settings room scope op (.ident name)) := by
        simp only [postfixOp, hstep]
        refine (stopsBy_look _).bind fun v => ?_
        split
        · exact (stopsBy_bindName scope _ _).bind fun _ => stopsBy_pure _
        · exact stopsBy_fail _
        · exact stopsBy_fail _
      simpa using fun h => hstops _ _ _ h rfl
    | _ => simp [postfixOp, hstep, blame_eq_tooDeep]

/-- Only at such a visit is the call stack found full. -/
theorem Visit.runsOut_of_raises (h : w.Raises settings .tooDeep s) : w.RunsOut settings s := by
  cases h with
  | tooDeep hfull => exact .node hfull
  | byNode hfits hraises =>
    cases hraises with
    | ident huse => exact absurd rfl (stopsBy_use _ _ _ _ huse)
    | signal _ _ huse => exact absurd rfl (stopsBy_use _ _ _ _ huse)
    | postfixOp hop =>
      obtain ⟨hblames, hfull, rfl⟩ := postfixOp_eq_tooDeep.mp hop
      exact .operand rfl hfits hblames hfull
    | ifThen _ hv | ifElse _ hv | whileCondition _ _ _ hv => exact absurd rfl (stopsBy_truth _ _ _ _ _ hv)
    | @builtin f b args vs _ _ s₁ s₂ _ hf hargs hb =>
      rcases bind_eq_error.mp hb with hcall | ⟨v, s₃, -, huse⟩
      · exact .arguments ⟨f, args, s₁, rfl, hfits, hf, hargs⟩ hcall
      · exact absurd rfl (stopsBy_use _ _ _ _ huse)
    | @arrayItem t i id v _ _ _ s₂ _ _ _ hitem =>
      have hstops : StopsBy (· ≠ .tooDeep) (do let n ← asPosition v; use (← select .array (← array id) n)) := by
        refine (stopsBy_asPosition v).bind fun n => ?_
        exact (stopsBy_find (by simp) _).bind fun vs => (stopsBy_select _ vs n).bind stopsBy_use
      exact absurd rfl (hstops _ _ _ hitem)
    | @stringItem t i id cs v _ _ _ s₂ _ _ _ _ hitem =>
      have hstops : StopsBy (· ≠ .tooDeep) (do let n ← asPosition v; newText [← select .string cs n]) :=
        (stopsBy_asPosition v).bind fun n => (stopsBy_select _ cs n).bind fun _ => stopsBy_newText _
      exact absurd rfl (hstops _ _ _ hitem)

theorem Visit.RunsOut.outcome_eq (h : w.RunsOut settings s) : w.outcome settings = (.error .tooDeep, s) := by
  cases h with
  | node hfull => exact congrFun (eval_of_not_fits hfull) _
  | @arguments b args s _ happlies hfull =>
    obtain ⟨f, es, s₁, hcall, hfits, hf, hargs⟩ := happlies
    rw [Visit.outcome, eval_of_fits hfits]
    rw [hcall] at hf hargs hfull ⊢
    exact (bind_of_ok hf).trans ((bind_of_ok hargs).trans (bind_of_error hfull))
  | operand hnode hfits hblames hfull =>
    rw [Visit.outcome, eval_of_fits hfits]
    rw [hnode] at hfull ⊢
    exact postfixOp_eq_tooDeep.mpr ⟨hblames, hfull, rfl⟩

/-- A visit inside that finds the call stack full is where everything stops. -/
theorem Visit.outcome_of_runsOut (hw : ReflTransGen (Enters settings) v w) (h : w.RunsOut settings s) :
    v.outcome settings = (.error .tooDeep, s) := outcome_eq_of_enters hw h.outcome_eq (by simp)

theorem Visit.exhausts_iff : v.Exhausts settings ↔
    ∃ w s, ReflTransGen (Enters settings) v w ∧ w.RunsOut settings s := by
  refine ⟨fun h => ?_, fun ⟨w, s, hw, hout⟩ => congrArg Prod.fst (outcome_of_runsOut hw hout)⟩
  obtain ⟨w, hw, hraises⟩ := exists_raises (Prod.ext h rfl)
  exact ⟨w, _, hw, runsOut_of_raises hraises⟩

theorem Visit.Exhausts.of_enters (hw : Enters settings v w) (h : w.Exhausts settings) : v.Exhausts settings := by
  obtain ⟨u, s, hu, hout⟩ := exhausts_iff.mp h
  exact exhausts_iff.mpr ⟨u, s, .head hw hu, hout⟩

end

section
variable {settings : Settings} {scope : ScopeId} {n : Node} {s : State} {d d' : Nat}

/-- More frames than enough make no difference. -/
theorem eval_of_not_exhausts (hd : d ≤ d') (h : ¬ Visit.Exhausts settings ⟨d, scope, n, s⟩) :
    eval settings d' scope n s = eval settings d scope n s := by
  induction d, scope, n using eval.induct settings generalizing d' s with
  | case1 d scope n hfits ih =>
    have hfits' : Fits settings d' n := Nat.lt_of_lt_of_le hfits hd
    have hinner (part : Node) : framesFor settings d n part ≤ framesFor settings d' n part := Nat.sub_le_sub_right hd _
    have hparts : node settings (roomFor settings d n) (inside settings d n) scope n s =
        node settings (roomFor settings d n) (inside settings d' n) scope n s := by
      refine node_congr (fun n' s' hpart => ?_) fun F' n' s' hpart => ?_
      · exact (ih _ _ (hinner n') fun hdeep => h (.of_enters (.inl (.part hfits hpart)) hdeep)).symm
      · exact (ih _ _ (hinner n') fun hdeep => h (.of_enters (.inr (.part hfits hpart)) hdeep)).symm
    rw [Visit.Exhausts, Visit.outcome, eval_of_fits hfits, hparts] at h
    rw [eval_of_fits hfits, eval_of_fits hfits', hparts]
    exact upToRoom_node (Nat.sub_le_sub_right hd _) settings _ scope n h
  | case2 d scope n hfull => exact absurd (congrArg Prod.fst (congrFun (eval_of_not_fits hfull) s)) h

/-- So many rounds of a loop, for which there are so many frames, lead from one state to another. -/
def Loops (settings : Settings) (frames : Nat) (scope : ScopeId) (c b : Node) : Nat → State → State → Prop :=
  Rounds (do truth .whileCondition (← inside settings frames (.whileStmt c b) scope c))
    (inside settings frames (.whileStmt c b) scope b)

/-- A loop is cut short only where its condition or its body is, in whichever round that is. -/
theorem not_exhausts_whileStmt {c b : Node} (hfits : Fits settings d (.whileStmt c b))
    (h : ∀ k s', k < settings.patience → Loops settings d scope c b k s s' →
      ¬ Visit.Exhausts settings ⟨framesFor settings d (.whileStmt c b) c, scope, c, s'⟩ ∧
        ∀ s'', inside settings d (.whileStmt c b) scope c s' = (.ok (.bool true), s'') →
          ¬ Visit.Exhausts settings ⟨framesFor settings d (.whileStmt c b) b, scope, b, s''⟩) :
    ¬ Visit.Exhausts settings ⟨d, scope, .whileStmt c b, s⟩ := by
  intro hdeep
  obtain ⟨w, s', hw, hout⟩ := Visit.exhausts_iff.mp hdeep
  rcases ReflTransGen.cases_head hw with rfl | ⟨u, hu, hw⟩
  · cases hout with
    | node hfull => exact hfull hfits
    | arguments happlies =>
      obtain ⟨_, _, _, hcall, -⟩ := happlies
      cases hcall
    | operand hnode => cases hnode
  have hu' : u.Exhausts settings := Visit.exhausts_iff.mpr ⟨w, s', hw, hout⟩
  cases hu with
  | inl hforwards =>
    cases hforwards with
    | part _ hpart =>
      cases hpart with
      | whileCondition hrounds hk => exact (h _ _ hk hrounds).1 hu'
      | whileBody hrounds hk hc => exact (h _ _ hk hrounds).2 _ hc hu'
  | inr hdelimits =>
    cases hdelimits with
    | part _ hpart => cases hpart

/-- The rounds of a loop do not add to its depth. -/
theorem eval_whileStmt_of_loops {c b : Node} {k : Nat} {s' s'' : State} (hfits : Fits settings d (.whileStmt c b))
    (hloops : Loops settings d scope c b k s s') (hk : k < settings.patience)
    (hc : inside settings d (.whileStmt c b) scope c s' = (.ok (.bool false), s'')) :
    eval settings d scope (.whileStmt c b) s = (.ok .null, s'') := by
  obtain ⟨left, hleft⟩ := Nat.exists_eq_add_of_lt hk
  have htest : (do truth .whileCondition (← inside settings d (.whileStmt c b) scope c)) s' = (.ok false, s'') :=
    truth_of_ok hc
  rw [eval_of_fits hfits]
  show repeatWhile _ _ settings.patience s = _
  rw [hleft, Nat.add_assoc, repeatWhile_of_rounds hloops, repeatWhile]
  simp only [htest]

theorem run_of_exhausts (h : Visit.Exhausts settings ⟨d, scope, n, s⟩) :
    ∃ w s', ReflTransGen (Visit.Enters settings) ⟨d, scope, n, s⟩ w ∧ w.RunsOut settings s' ∧
      run { settings with frames := d } scope n s = (.value (.error .nesting), s') := by
  obtain ⟨w, s', hw, hout⟩ := Visit.exhausts_iff.mp h
  have hstop : eval settings d scope n s = (.error .tooDeep, s') := Visit.outcome_of_runsOut hw hout
  refine ⟨w, s', hw, hout, ?_⟩
  rw [run, eval_frames, hstop]

end

/-- An evaluation that the bound on nesting does not cut short is the same under every higher bound: it gives the same
value, prints the same and leaves all bindings and objects the same.  One that it does cut short stops where the call stack
is found full, and a run answers that it nests too deep and leaves the state as it is there.  A loop needs no more depth
than its condition and its body, for however many rounds it runs. -/
theorem depth_shows_only_when_exhausted (settings : Settings) (scope : ScopeId) (n : Node) (s : State) {d d' : Nat}
    (hd : d ≤ d') :
    (¬ Visit.Exhausts settings ⟨d, scope, n, s⟩ →
      eval settings d' scope n s = eval settings d scope n s ∧
      run { settings with frames := d' } scope n s = run { settings with frames := d } scope n s) ∧
    (Visit.Exhausts settings ⟨d, scope, n, s⟩ →
      ∃ w s', ReflTransGen (Visit.Enters settings) ⟨d, scope, n, s⟩ w ∧ w.RunsOut settings s' ∧
        run { settings with frames := d } scope n s = (.value (.error .nesting), s')) ∧
    EvalError.nesting.message = "Maximum recursion depth exceeded" ∧
    ∀ c b, Fits settings d (.whileStmt c b) →
      ((∀ k s', k < settings.patience → Loops settings d scope c b k s s' →
        ¬ Visit.Exhausts settings ⟨framesFor settings d (.whileStmt c b) c, scope, c, s'⟩ ∧
          ∀ s'', inside settings d (.whileStmt c b) scope c s' = (.ok (.bool true), s'') →
            ¬ Visit.Exhausts settings ⟨framesFor settings d (.whileStmt c b) b, scope, b, s''⟩) →
        ¬ Visit.Exhausts settings ⟨d, scope, .whileStmt c b, s⟩) ∧
      ∀ k s' s'', Loops settings d scope c b k s s' → k < settings.patience →
        inside settings d (.whileStmt c b) scope c s' = (.ok (.bool false), s'') →
          eval settings d scope (.whileStmt c b) s = (.ok .null, s'') := by
  refine ⟨fun h => ?_, run_of_exhausts, rfl, fun c b hfits =>
    ⟨not_exhausts_whileStmt hfits, fun k s' s'' => eval_whileStmt_of_loops hfits⟩⟩
  have heval := eval_of_not_exhausts hd h
  refine ⟨heval, ?_⟩
  simp only [run, eval_frames, heval]

def countToFive : Node := .program [.letStmt "i" (.int 0),
  .whileStmt (.infixOp .lt (.ident "i") (.int 5)) (.block [.exprStmt (.postfixOp .increment (.ident "i"))])]

def endlessCalls : Node := .program [.letStmt "x" (.int 1),
  .letStmt "f" (.fn [] (.block [.exprStmt (.call (.ident "f") [])])), .exprStmt (.call (.ident "f") [])]

/-- Counting needs depth for one round only, and the calls leave the name bound when they have used up theirs. -/
theorem countToFive_needs_five_levels :
    ¬ Visit.Exhausts ⟨.null, .flat, 9, 9⟩ ⟨5, 0, countToFive, .initial⟩ ∧
      run ⟨.null, .flat, 1000000, 9⟩ 0 countToFive .initial = (.value .null, State.initial.put 0 "i" (.int 5)) ∧
      Visit.Exhausts ⟨.null, .flat, 9, 9⟩ ⟨7, 0, endlessCalls, .initial⟩ ∧
      ∃ s, run ⟨.null, .flat, 7, 9⟩ 0 endlessCalls .initial = (.value (.error .nesting), s) ∧
        s.lookup 0 "x" = .int 1 := by
  have hcount : run ⟨.null, .flat, 5, 9⟩ 0 countToFive .initial =
      (.value .null, State.initial.put 0 "i" (.int 5)) := by cbv
  have hfits : ¬ Visit.Exhausts ⟨.null, .flat, 9, 9⟩ ⟨5, 0, countToFive, .initial⟩ := by
    have hvalue : (eval ⟨.null, .flat, 9, 9⟩ 5 0 countToFive .initial).1 = .ok .null := by cbv
    intro hdeep
    cases hvalue.symm.trans hdeep
  have hdeep : Visit.Exhausts ⟨.null, .flat, 9, 9⟩ ⟨7, 0, endlessCalls, .initial⟩ := by
    have hstop : (eval ⟨.null, .flat, 9, 9⟩ 7 0 endlessCalls .initial).1 = .error .tooDeep := by cbv
    exact hstop
  have h := depth_shows_only_when_exhausted ⟨.null, .flat, 9, 9⟩ 0 countToFive .initial (show 5 ≤ 1000000 by decide)
  have h' := depth_shows_only_when_exhausted ⟨.null, .flat, 9, 9⟩ 0 endlessCalls .initial (Nat.le_refl 7)
  obtain ⟨w, s, -, -, hrun⟩ := h'.2.1 hdeep
  have hx : (run ⟨.null, .flat, 7, 9⟩ 0 endlessCalls .initial).2.lookup 0 "x" = .int 1 := by cbv
  exact ⟨hfits, (h.1 hfits).2.trans hcount, hdeep, s, hrun, by rwa [hrun] at hx⟩

end Eval
end Scriptlet
