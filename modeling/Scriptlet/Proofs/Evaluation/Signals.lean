import Scriptlet.Proofs.Evaluation.Values

/-! Returns and errors are signals and never data: they go out to where they belong, and no scope, array or argument
ever holds one. -/
namespace Scriptlet
open Relation (ReflTransGen)

def Value.isData : Value → Bool
  | returned _ | error _ => false
  | _ => true

structure State.Clean (s : State) : Prop where
  bindings : ∀ (E : ScopeId) (scope : Scope), s.scopes[E]? = some scope → ∀ entry ∈ scope.bindings, entry.2.isData
  elements : ∀ (id : ArrayId) (vs : List Value), s.arrays[id]? = some vs → ∀ v ∈ vs, v.isData

namespace State

theorem clean_iff_every {s : State} : s.Clean ↔ s.Every fun v => v.isData :=
  ⟨fun h => ⟨h.bindings, h.elements⟩, fun h => ⟨h.bindings, h.elements⟩⟩

theorem Clean.initial : State.initial.Clean := clean_iff_every.mpr (.initial _)

end State

namespace Law

def onlyData : Law := ⟨State.Clean, fun _ _ _ => True, fun _ v => v.isData, fun _ _ => True, fun _ => True⟩

theorem makes_data : Makes (fun _ => True) fun v => v.isData where
  child _ _ := trivial
  null := rfl
  bool _ := rfl
  builtin _ := rfl
  literal _ := rfl
  wrap _ := rfl
  str _ := rfl
  arr _ := rfl
  fn _ _ := rfl
  body _ := trivial
  returned hv := by cases hv

theorem onlyData_closed : onlyData.Closed := by
  have hclean : State.Clean = State.Every fun v => v.isData := by
    funext s
    exact propext State.clean_iff_every
  have heq : onlyData = every (fun v => v.isData) fun _ => True := by
    simp only [onlyData, every, hclean]
  rw [heq]
  exact every_closed makes_data fun _ => rfl

end Law

namespace Eval
open Run
variable {settings : Settings}

/-- Values that can be called with so many arguments; builtin functions check the number themselves. -/
def takes (count : Nat) : Value → Prop
  | .builtin _ => True
  | .fn params _ _ => params.length = count
  | _ => False

/-- The values that a visit hands over to a builtin function or to a function. -/
def Visit.Supplies (settings : Settings) (v : Visit) (args : List Value) : Prop :=
  ∃ (f : Node) (es : List Node) (s₁ s₂ : State) (called : Value), v.node = .call f es ∧ Fits settings v.frames v.node ∧
    inside settings v.frames v.node v.scope f v.state = (.ok called, s₁) ∧ takes es.length called ∧
      each (inside settings v.frames v.node v.scope) es s₁ = (.ok args, s₂)

theorem use_of_isData {v : Value} {s : State} (h : v.isData) : use v s = (.ok v, s) := by
  cases v <;> first | rfl | cases h

/-- From a clean state on, only clean states follow. -/
theorem clean_of_enters {v w : Visit} (hclean : v.state.Clean) (hw : ReflTransGen (Visit.Enters settings) v w) :
    w.state.Clean :=
  (Law.ready_of_enters Law.onlyData_closed ⟨hclean, trivial⟩ trivial hw).1.holds

theorem onlyData_keeps_outcome {w : Visit} (hclean : w.state.Clean) :
    Law.onlyData.Keeps w.scope Law.onlyData.Allows w.state (w.outcome settings) :=
  Law.keeps_eval Law.onlyData_closed settings w.frames ⟨hclean, trivial⟩ trivial

theorem clean_of_outcome {w : Visit} (hclean : w.state.Clean) : (w.outcome settings).2.Clean :=
  (onlyData_keeps_outcome hclean).next.1

theorem isData_of_outcome_ok {w : Visit} {value : Value} {s : State} (hclean : w.state.Clean)
    (h : w.outcome settings = (.ok value, s)) : value.isData :=
  ((onlyData_keeps_outcome hclean).of_ok h).2

theorem isData_of_outcome_returned {w : Visit} {value : Value} {s : State} (hclean : w.state.Clean)
    (h : w.outcome settings = (.error (.returned value), s)) : value.isData :=
  ((onlyData_keeps_outcome hclean).of_returned h).2

theorem isData_of_supplies {w : Visit} {args : List Value} (hclean : w.state.Clean) (h : w.Supplies settings args) :
    ∀ value ∈ args, value.isData := by
  obtain ⟨f, es, s₁, s₂, called, -, -, hf, -, hargs⟩ := h
  have hinner := Law.obeys_inside Law.onlyData_closed settings w.frames w.node
  have h₁ := Law.ready_of_ok Law.onlyData_closed hinner ⟨hclean, trivial⟩ trivial hf
  exact ((Law.keeps_nodes Law.onlyData_closed hinner h₁ fun _ _ => trivial).of_ok hargs).2

theorem run_ne_returned {scope : ScopeId} {n : Node} {s : State} (hclean : s.Clean) (value : Value) :
    (run settings scope n s).1 ≠ .value (.returned value) := by
  have hok := @isData_of_outcome_ok settings ⟨settings.frames, scope, n, s⟩
  have hreturned := @isData_of_outcome_returned settings ⟨settings.frames, scope, n, s⟩
  simp only [Visit.outcome] at hok hreturned
  intro h
  rcases eval_of_run_value h with heval | heval | ⟨e, he⟩
  · cases hok hclean heval
  · cases hreturned hclean heval
  · cases he

/-- From a clean state on, whatever is evaluated starts and ends in a clean state, all its results, returned values and
arguments are data, and no evaluation for a value alone answers a return. -/
theorem signals_never_data (settings : Settings) {v w : Visit} (hclean : v.state.Clean)
    (hw : ReflTransGen (Visit.Enters settings) v w) :
    w.state.Clean ∧ (w.outcome settings).2.Clean ∧
      (∀ value s, w.outcome settings = (.ok value, s) → value.isData) ∧
      (∀ value s, w.outcome settings = (.error (.returned value), s) → value.isData) ∧
      (∀ args, w.Supplies settings args → ∀ value ∈ args, value.isData) ∧
      ∀ value, (run settings w.scope w.node w.state).1 ≠ .value (.returned value) := by
  have hstart := clean_of_enters hclean hw
  refine ⟨hstart, clean_of_outcome hstart, ?_, ?_, ?_, run_ne_returned hstart⟩
  · intro value s h
    exact isData_of_outcome_ok hstart h
  · intro value s h
    exact isData_of_outcome_returned hstart h
  · intro args h
    exact isData_of_supplies hstart h

/-- The value that a `return` inside a `let` is on its way out with. -/
theorem return_in_let_never_data :
    State.initial.Clean ∧
      ReflTransGen (Visit.Enters ⟨.null, .flat, 3, 1⟩) ⟨3, 0, .letStmt "x" (.returnStmt (.int 7)), .initial⟩
        ⟨2, 0, .returnStmt (.int 7), .initial⟩ ∧
      Visit.outcome ⟨.null, .flat, 3, 1⟩ ⟨2, 0, .returnStmt (.int 7), .initial⟩ = (.error (.returned (.int 7)), .initial) ∧
      Value.isData (.int 7) := by
  have hw : ReflTransGen (Visit.Enters ⟨.null, .flat, 3, 1⟩) ⟨3, 0, .letStmt "x" (.returnStmt (.int 7)), .initial⟩
      ⟨2, 0, .returnStmt (.int 7), .initial⟩ := .single (.inl (.part (by decide) .letStmt))
  have h := signals_never_data ⟨.null, .flat, 3, 1⟩ State.Clean.initial hw
  have hreturned : Visit.outcome ⟨.null, .flat, 3, 1⟩ ⟨2, 0, .returnStmt (.int 7), .initial⟩ =
      (.error (.returned (.int 7)), .initial) := by cbv
  exact ⟨State.Clean.initial, hw, hreturned, h.2.2.2.1 (.int 7) .initial hreturned⟩

theorem outcome_of_returned {v body w : Visit} {value : Value} {s : State} (hv : Visit.Delimits settings v body)
    (hw : ReflTransGen (Visit.Forwards settings) body w) (hstop : w.outcome settings = (.error (.returned value), s)) :
    v.outcome settings = use value s :=
  hv.outcome_eq_of_returned (Visit.outcome_eq_of_forwards hw hstop)

theorem run_of_failed {scope : ScopeId} {n : Node} {s s' : State} {e : EvalError}
    (h : eval settings settings.frames scope n s = (.error (.failed e), s')) :
    run settings scope n s = (.value (.error e), s') := by
  unfold run
  rw [h]

/-- What stops a part stops everything around it at once: whatever passes it on stops in the same state.  A `return`
ends with the nearest program or function call around it, which gives its value, and an error ends everything. -/
theorem signals_forwarded (settings : Settings) :
    (∀ v w why s, ReflTransGen (Visit.Forwards settings) v w → w.outcome settings = (.error why, s) →
      v.outcome settings = (.error why, s)) ∧
    (∀ v body w value s, Visit.Delimits settings v body → ReflTransGen (Visit.Forwards settings) body w →
      w.outcome settings = (.error (.returned value), s) →
        v.outcome settings = use value s ∧ (v.state.Clean → v.outcome settings = (.ok value, s))) ∧
    (∀ v w e s, ReflTransGen (Visit.Enters settings) v w → w.outcome settings = (.error (.failed e), s) →
      v.outcome settings = (.error (.failed e), s) ∧
        (v.frames = settings.frames → run settings v.scope v.node v.state = (.value (.error e), s))) := by
  refine ⟨fun v w why s hw hstop => Visit.outcome_eq_of_forwards hw hstop, ?_, ?_⟩
  · intro v body w value s hv hw hstop
    have hvalue := outcome_of_returned hv hw hstop
    refine ⟨hvalue, fun hclean => ?_⟩
    have hforwards : ReflTransGen (Visit.Enters settings) body w := hw.lift id fun _ _ h => .inl h
    have henters : ReflTransGen (Visit.Enters settings) v w := .head (.inr hv) hforwards
    rw [hvalue, use_of_isData (isData_of_outcome_returned (clean_of_enters hclean henters) hstop)]
  · intro v w e s hw hstop
    have hfailed := Visit.outcome_eq_of_enters hw hstop (by simp)
    refine ⟨hfailed, fun hframes => run_of_failed ?_⟩
    rw [← hframes]
    exact hfailed

/-- A `return` in an operand, in a `let`, in the body of a function. -/
theorem return_in_operand_forwarded :
    Visit.outcome ⟨.null, .flat, 6, 1⟩
      ⟨6, 0, .call (.fn [] (.block [.letStmt "x" (.infixOp .plus (.int 1) (.returnStmt (.int 7)))])) [], .initial⟩ =
        (.ok (.int 7), State.initial.addScope (localScope 0 [] [])) := by
  have hbody : Visit.Delimits ⟨.null, .flat, 6, 1⟩
      ⟨6, 0, .call (.fn [] (.block [.letStmt "x" (.infixOp .plus (.int 1) (.returnStmt (.int 7)))])) [], .initial⟩
      ⟨5, State.initial.scopes.size, .block ([] ++ .letStmt "x" (.infixOp .plus (.int 1) (.returnStmt (.int 7))) :: []),
        State.initial.addScope (localScope 0 [] [])⟩ := by
    refine .part (by decide) (.body ?_ rfl rfl)
    cbv
  refine ((signals_forwarded ⟨.null, .flat, 6, 1⟩).2.1 _ _
    ⟨2, State.initial.scopes.size, .returnStmt (.int 7), State.initial.addScope (localScope 0 [] [])⟩
    (.int 7) _ hbody ?_ (by cbv)).2 State.Clean.initial
  exact .head (.part (by decide) (.blockStmt rfl))
    (.head (.part (by decide) .letStmt) (.single (.part (by decide) (.right (by cbv)))))

end Eval
end Scriptlet
