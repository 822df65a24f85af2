import Mathlib
import Scriptlet.Proofs.Session.Running
import Scriptlet.Proofs.Session.Units

/-! The queue of a session over all that is asked of the session.  A run takes units off the front of the queue, up to the
first that fails, so a unit that was added once is run once at most, however often a run has to be tried again. -/
namespace Scriptlet
namespace Session

theorem without_append {units rest : Table LineNumber String} (hkeys : (units ++ rest).keys.Nodup) :
    without (units ++ rest) units = rest := by
  induction units with
  | nil => rfl
  | cons first units ih =>
    obtain ⟨hfirst, hkeys⟩ := List.nodup_cons.mp hkeys
    have herase : Table.erase (first :: (units ++ rest)) first.1 = units ++ rest := Table.erase_cons_self hfirst
    rw [List.cons_append, without, List.foldl_cons, herase]
    exact ih hkeys

/-- The queue once a unit has been added.  A line that waits already keeps its place. -/
def queued (queue : Table LineNumber String) (unit : String) (number : LineNumber) : Table LineNumber String :=
  if number ∈ queue.keys then queue.map fun entry => if entry.1 = number then (number, unit) else entry
  else queue ++ [(number, unit)]

theorem add_eq_queued {s : Session} (hkeys : s.queue.keys.Nodup) (unit : String) (number : LineNumber) :
    s.add unit number = { s with queue := queued s.queue unit number } := by
  have hqueue : s.queue.put number unit = queued s.queue unit number := by
    rw [queued]
    split
    · exact Table.put_of_mem hkeys ‹_› unit
    · exact Table.put_of_not_mem ‹_› unit
  rw [add, hqueue]

/-- What a run comes to, with the units that it runs. -/
inductive Drains (s : Session) : List (LineNumber × String) → Option Interruption × Session → Prop
  /-- All units succeed, and no line stays registered. -/
  | all {shown σ} (hunits : Succeed s.mode s.settings s.handler.style s.state s.queue shown σ) :
      Drains s s.queue (none, { s with
        handler := if s.queue = [] then s.handler else s.handler.removeLine s.path
        state := { σ with printed := s.state.printed ++ String.join shown }
        queue := [] })
  /-- The first unit that fails is the last one that is run, and stays registered.  Those after it wait on. -/
  | upTo {before number unit after shown σ failure σ' e} (hqueue : s.queue = before ++ (number, unit) :: after)
      (hbefore : Succeed s.mode s.settings s.handler.style s.state before shown σ)
      (hunit : Outcome s.mode s.settings s.handler.style unit σ.quiet (.error failure) σ')
      (he : ∀ handler : Handler, handler.handle e = handler.throw failure) :
      Drains s (before ++ [(number, unit)]) (some e, { s with
        handler := s.handler.registerLine s.path ⟨unit, number⟩
        state := { σ' with printed := s.state.printed ++ String.join shown ++ σ'.printed }
        queue := after })

theorem Drains.append_queue {s : Session} {ran : List (LineNumber × String)} {result : Option Interruption × Session}
    (h : s.Drains ran result) : ran ++ result.2.queue = s.queue := by
  cases h with
  | all hunits => exact List.append_nil _
  | upTo hqueue hbefore hunit he => simp [hqueue]

section
variable {s : Session}

theorem registerLine_removeLine (handler : Handler) (path : String) (line : Line) :
    (handler.removeLine path).registerLine path line = handler.registerLine path line := by
  rw [Handler.removeLine, Handler.registerLine, Table.put_put, Handler.registerLine]

theorem resumed_eq (s : Session) (σ : State) (text : String) (queue : Table LineNumber String) :
    s.resumed σ text queue = { s with state := { σ with printed := text }, queue } := by
  simp [resumed, State.preceded, State.quiet]

theorem Drains.nodup_keys {ran : List (LineNumber × String)} {result : Option Interruption × Session}
    (h : s.Drains ran result) (hkeys : s.queue.keys.Nodup) : result.2.queue.keys.Nodup := by
  rw [← h.append_queue, Table.keys, List.map_append] at hkeys
  exact (List.nodup_append.mp hkeys).2.1

theorem idle_removeLine (handler : Handler) (path : String) : (handler.removeLine path).Idle path := by
  rw [Handler.Idle, Handler.removeLine, Table.get?_put, if_pos rfl]

/-- The line of the first unit takes the place of whatever line is registered. -/
theorem run_eq_of_removeLine (h : s.queue ≠ []) : s.run = runUnits s.queue
    (resumed { s with handler := s.handler.removeLine s.path } s.state s.state.printed s.queue) := by
  obtain ⟨first, rest, hqueue⟩ := List.exists_cons_of_ne_nil h
  rw [resumed_eq]
  simp only [run, hqueue, runUnits, registerLine_removeLine]

theorem run_of_succeed {shown : List String} {σ : State} (hkeys : s.queue.keys.Nodup)
    (h : Succeed s.mode s.settings s.handler.style s.state s.queue shown σ) :
    s.run = (none, { s with
      handler := if s.queue = [] then s.handler else s.handler.removeLine s.path
      state := { σ with printed := s.state.printed ++ String.join shown }
      queue := [] }) := by
  by_cases hempty : s.queue = []
  · rw [hempty] at h
    cases h
    have hrun : s.run = (none, s) := by
      rw [run, hempty]
      rfl
    rw [hrun, if_pos hempty, String.join_nil, String.append_empty, ← hempty]
  · have hwithout : without s.queue s.queue = [] := by
      have hall : without (s.queue ++ []) s.queue = [] := without_append (by rwa [List.append_nil])
      rwa [List.append_nil] at hall
    have hunits := runUnits_of_succeed (s := { s with handler := s.handler.removeLine s.path }) h
      (idle_removeLine s.handler s.path) s.state.printed s.queue
    rw [run_eq_of_removeLine hempty, hunits, hwithout, resumed_eq, if_neg hempty]

theorem run_of_failure {before after : List (LineNumber × String)} {number : LineNumber} {unit : String}
    {shown : List String} {σ σ' : State} {failure : Failure} (hkeys : s.queue.keys.Nodup)
    (hqueue : s.queue = before ++ (number, unit) :: after)
    (hbefore : Succeed s.mode s.settings s.handler.style s.state before shown σ)
    (hunit : Outcome s.mode s.settings s.handler.style unit σ.quiet (.error failure) σ') :
    ∃ e, s.run = (some e, { s with
        handler := s.handler.registerLine s.path ⟨unit, number⟩
        state := { σ' with printed := s.state.printed ++ String.join shown ++ σ'.printed }
        queue := after }) ∧
      ∀ handler : Handler, handler.handle e = handler.throw failure := by
  have hwithout : without s.queue (before ++ [(number, unit)]) = after := by
    have hsplit : s.queue = before ++ [(number, unit)] ++ after := by simp [hqueue]
    rw [hsplit] at hkeys ⊢
    exact without_append hkeys
  obtain ⟨e, hunits, he⟩ := runUnits_of_failure (s := { s with handler := s.handler.removeLine s.path }) hbefore hunit
    (idle_removeLine s.handler s.path) number after s.state.printed s.queue
  refine ⟨e, ?_, he⟩
  rw [hwithout, ← hqueue] at hunits
  rw [run_eq_of_removeLine (by simp [hqueue]), hunits, registerLine_removeLine]
  rfl

/-- A run takes units off the front of the queue and comes to what they come to. -/
theorem run_drains (hkeys : s.queue.keys.Nodup) : ∃ ran, s.Drains ran s.run := by
  rcases succeed_or_fails s.mode s.settings s.handler.style s.state s.queue with
    ⟨shown, σ, hunits⟩ | ⟨before, number, unit, after, shown, σ, failure, σ', hqueue, hbefore, hunit⟩
  · rw [run_of_succeed hkeys hunits]
    exact ⟨_, .all hunits⟩
  · obtain ⟨e, hrun, he⟩ := run_of_failure hkeys hqueue hbefore hunit
    rw [hrun]
    exact ⟨_, .upTo hqueue hbefore hunit he⟩

end

/-- The line that stays registered is that of the last unit that was run, if it failed. -/
theorem Drains.registered {s s' : Session} {ran : List (LineNumber × String)} {e : Option Interruption}
    (h : s.Drains ran (e, s')) : s'.handler.traceback.get? s.path =
      if ran = [] then s.handler.traceback.get? s.path
      else if e = none then some none
      else ran.getLast?.map fun (number, unit) => some ⟨unit, number⟩ := by
  cases h with
  | all hunits => by_cases hempty : s.queue = [] <;> simp [hempty, Handler.removeLine, Table.get?_put]
  | upTo hqueue hbefore hunit he => simp [Handler.registerLine, Table.get?_put]

theorem nodup_keys_start {read : String → Option String} {handler : Handler} {path mode : String} {typed : Bool}
    {settings : Settings} {s : Session} (h : (start read handler path mode typed settings).result = .ok s) :
    s.queue.keys.Nodup := by
  have hadd (s : Session) (units : List (Nat × List Char)) (hkeys : s.queue.keys.Nodup) :
      (s.addAll units).queue.keys.Nodup := by
    induction units generalizing s with
    | nil => exact hkeys
    | cons u units ih => exact ih _ (Table.nodup_keys_put hkeys _ _)
  unfold start at h
  split at h
  · cases h
  dsimp only at h
  split at h
  · split at h
    · cases h
      exact List.nodup_nil
    · cases h
  · split at h
    · cases h
      exact hadd _ _ List.nodup_nil
    · cases h

inductive Request
  | add (unit : String) (number : LineNumber)
  | run
deriving DecidableEq, Repr

def serve (s : Session) : Request → Session
  | .add unit number => s.add unit number
  | .run => s.run.2

def added : List Request → List (LineNumber × String)
  | [] => []
  | .add unit number :: requests => (number, unit) :: added requests
  | .run :: requests => added requests

/-- What becomes of a session, with the units that each of the runs runs. -/
inductive History : Session → List Request → List (List (LineNumber × String)) → Session → Prop
  | nil {s} : History s [] [] s
  | add {s unit number requests runs s'}
      (hrest : History { s with queue := queued s.queue unit number } requests runs s') :
      History s (.add unit number :: requests) runs s'
  | run {s ran requests runs s'} (hrun : s.Drains ran s.run) (hrest : History s.run.2 requests runs s') :
      History s (.run :: requests) (ran :: runs) s'

theorem nodup_keys_serve {s : Session} (hkeys : s.queue.keys.Nodup) (request : Request) :
    (s.serve request).queue.keys.Nodup := by
  cases request with
  | add unit number => exact Table.nodup_keys_put hkeys number unit
  | run =>
    obtain ⟨ran, hrun⟩ := run_drains hkeys
    exact hrun.nodup_keys hkeys

theorem exists_history {s : Session} (hkeys : s.queue.keys.Nodup) (requests : List Request) :
    ∃ runs, History s requests runs (requests.foldl serve s) := by
  induction requests generalizing s with
  | nil => exact ⟨[], .nil⟩
  | cons request requests ih =>
    obtain ⟨runs, hrest⟩ := ih (nodup_keys_serve hkeys request)
    cases request with
    | add unit number =>
      refine ⟨runs, .add ?_⟩
      rwa [← add_eq_queued hkeys]
    | run =>
      obtain ⟨ran, hrun⟩ := run_drains hkeys
      exact ⟨ran :: runs, .run hrun hrest⟩

/-- No unit is run or waits that was not there or added before, and none more often than that. -/
theorem History.subperm {s s' : Session} {requests : List Request} {runs : List (List (LineNumber × String))}
    (h : History s requests runs s') (hkeys : s.queue.keys.Nodup) :
    (runs.flatten ++ s'.queue).Subperm (s.queue ++ added requests) := by
  induction h with
  | nil =>
    rw [added, List.append_nil]
    exact List.Subperm.refl _
  | @add s unit number requests runs s' _ ih =>
    rw [← add_eq_queued hkeys] at ih
    have hrest := ih (Table.nodup_keys_put hkeys number unit)
    have hput := (List.subperm_append_right (added requests)).mpr (Table.put_subperm s.queue number unit)
    rw [List.append_assoc] at hput
    exact hrest.trans hput
  | @run s ran requests runs s' hrun _ ih =>
    have hqueue : ran ++ s.run.2.queue = s.queue := hrun.append_queue
    have hrest := (List.subperm_append_left ran).mpr (ih (hrun.nodup_keys hkeys))
    rwa [← List.append_assoc, ← List.append_assoc, hqueue] at hrest

theorem execute_of_unparsed {s : Session} {unit : String} {why : ParseStop} (hmode : s.mode ≠ .lexer)
    (hparse : Program.parseWithin s.settings.room unit = .error why) : ∃ e, s.execute unit = (.error e, s) := by
  obtain ⟨failure, hunit⟩ :
      ∃ failure, Outcome s.mode s.settings s.handler.style unit s.state (.error failure) s.state := by
    cases why with
    | refused p => exact ⟨_, .refused hmode hparse⟩
    | exhausted => exact ⟨_, .unread hmode hparse⟩
  obtain ⟨e, hexecute, -⟩ := execute_of_error hunit
  exact ⟨e, hexecute⟩

/-- Whatever is asked of a session, each run of it takes units off the front of the queue, up to the first that fails.  A
unit is run once at most for each time that it was added.  One that is no program, or that nests too deep to be read,
changes nothing. -/
theorem units_run_once_in_order {s : Session} (hkeys : s.queue.keys.Nodup) (requests : List Request) :
    (∃ runs, History s requests runs (requests.foldl serve s) ∧
      (runs.flatten ++ (requests.foldl serve s).queue).Subperm (s.queue ++ added requests)) ∧
    ∀ (t : Session) unit why, t.mode ≠ .lexer → Program.parseWithin t.settings.room unit = .error why →
      ∃ e, t.execute unit = (.error e, t) := by
  obtain ⟨runs, hhistory⟩ := exists_history hkeys requests
  exact ⟨⟨runs, hhistory, hhistory.subperm hkeys⟩, fun t unit why => execute_of_unparsed⟩

def typedSession : Session := ⟨⟨false, .plain, [("<in>", none)]⟩, "<in>", .evaluator, ⟨.null, .flat, 9, 9⟩, .initial, []⟩

/-- The second of three units fails, and the third one waits for the second run. -/
def twoRuns : List Request := [.add "1" 1, .add ")" 2, .add "2" 3, .run, .run]

set_option maxRecDepth 8000 in
def underway (handler : Handler) (state : State) (queue : Table LineNumber String) : Session :=
  ⟨handler, "<in>", .evaluator, ⟨.null, .flat, 9, 9⟩, state, queue⟩

theorem execute_number (unit : String) (n : Int)
    (hparse : Program.parseWithin ⟨.flat, 9⟩ unit = .ok (.program [.exprStmt (.int n)])) (handler : Handler)
    (state : State) (queue : Table LineNumber String) :
    (underway handler state queue).execute unit = (.ok (toString n), underway handler state queue) := by
  have hrun : Eval.run ⟨.null, .flat, 9, 9⟩ State.globalScope (.program [.exprStmt (.int n)]) state =
      (.value (.int n), state) := by cbv
  have htext : (Run.textOf .flat 9 (.int n) state).1 = .ok (toString n) := by cbv
  exact execute_of_ok (s := underway handler state queue) (.value rfl hparse hrun (by simp) htext)

theorem printed_twoRuns : (twoRuns.foldl serve typedSession).state.printed = "1\n2\n" := by
  have hfirst := execute_number "1" 1 (by cbv)
  have hthird := execute_number "2" 2 (by cbv)
  have hsecond (handler : Handler) (state : State) (queue : Table LineNumber String) :
      ∃ e, (underway handler state queue).execute ")" = (.error e, underway handler state queue) := by
    have hnone : (Program.parseWithin ⟨.flat, 9⟩ ")").toOption = none := by cbv
    cases hparse : Program.parseWithin ⟨.flat, 9⟩ ")" with
    | error why => exact execute_of_unparsed (by simp [underway]) hparse
    | ok n =>
      rw [hparse] at hnone
      cases hnone
  unfold underway at hfirst hsecond hthird
  choose e hsecond using hsecond
  simp [twoRuns, typedSession, serve, add, run, runUnits, hfirst, hsecond, hthird, Table.put, Table.erase]
  rfl

/-- None of the three is run twice, and what the first and the third come to is printed. -/
theorem units_of_twoRuns_run_once : typedSession.queue.keys.Nodup ∧
    (twoRuns.foldl serve typedSession).state.printed = "1\n2\n" ∧
    ∃ runs, History typedSession twoRuns runs (twoRuns.foldl serve typedSession) ∧ runs.flatten.Nodup := by
  have hstart : (start (fun _ => none) (.new false .plain) "<in>" "evaluator" true ⟨.null, .flat, 9, 9⟩).result =
      .ok typedSession := rfl
  have hkeys := nodup_keys_start hstart
  obtain ⟨⟨runs, hhistory, hsubperm⟩, -⟩ := units_run_once_in_order hkeys twoRuns
  refine ⟨hkeys, printed_twoRuns, runs, hhistory, List.nodup_iff_count_le_one.mpr fun unit => ?_⟩
  have hadded : (typedSession.queue ++ added twoRuns).Nodup := by decide
  have hruns := (List.sublist_append_left runs.flatten _).subperm.trans hsubperm
  exact (hruns.count_le unit).trans (List.nodup_iff_count_le_one.mp hadded unit)

end Session
end Scriptlet
