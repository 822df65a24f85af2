import Scriptlet.Proofs.Session.Outcome
import Scriptlet.Proofs.Session.Reports

/-! Running a queue of units.  Units that succeed leave the handler as it was and print what they print and show; the first
one that fails stays registered for the report, and those after it are not run. -/
namespace Scriptlet
namespace Session
open Text

section
variable (mode : Mode) (settings : Settings) (style : Style)

/-- Units that succeed one after the other lead from one state to another.  Each is given with what it printed and, on a
line of its own, what is shown for it. -/
inductive Succeed : State → List (LineNumber × String) → List String → State → Prop
  | nil {s} : Succeed s [] [] s
  | cons {s number unit rest text s₁ shown s'} (hunit : Outcome mode settings style unit s.quiet (.ok text) s₁)
      (hrest : Succeed s₁ rest shown s') :
      Succeed s ((number, unit) :: rest) ((s₁.printed ++ text ++ "\n") :: shown) s'

/-- Of units that do not all succeed there is a first one that fails. -/
theorem succeed_or_fails (s : State) (units : List (LineNumber × String)) :
    (∃ shown s', Succeed mode settings style s units shown s') ∨
      ∃ before number unit after shown s₁ failure s', units = before ++ (number, unit) :: after ∧
        Succeed mode settings style s before shown s₁ ∧
          Outcome mode settings style unit s₁.quiet (.error failure) s' := by
  induction units generalizing s with
  | nil => exact .inl ⟨_, _, .nil⟩
  | cons first rest ih =>
    obtain ⟨number, unit⟩ := first
    obtain ⟨result, s₁, hunit⟩ := exists_outcome mode settings style unit s.quiet
    cases result with
    | error failure => exact .inr ⟨[], number, unit, rest, _, s, failure, s₁, rfl, .nil, hunit⟩
    | ok text =>
      rcases ih s₁ with ⟨shown, s', hrest⟩ | ⟨before, number', unit', after, shown, s₂, failure, s', rfl, hbefore, hfails⟩
      · exact .inl ⟨_, _, .cons hunit hrest⟩
      · exact .inr ⟨_, _, _, _, _, _, _, _, rfl, .cons hunit hbefore, hfails⟩

end

variable {s : Session} {unit : String} {s' : State}

theorem runUnits_cons_of_ok {text : String} (hidle : s.handler.Idle s.path)
    (h : Outcome s.mode s.settings s.handler.style unit s.state (.ok text) s') (number : LineNumber)
    (rest : List (LineNumber × String)) :
    runUnits ((number, unit) :: rest) s =
      runUnits rest { s with state := s'.print text, queue := s.queue.erase number } := by
  have hexecute : execute { s with handler := s.handler.registerLine s.path ⟨unit, number⟩ } unit =
      (.ok text, { s with handler := s.handler.registerLine s.path ⟨unit, number⟩, state := s' }) := execute_of_ok h
  rw [runUnits]
  simp only [hexecute, hidle.removeLine_registerLine]

theorem runUnits_cons_of_error {failure : Failure}
    (h : Outcome s.mode s.settings s.handler.style unit s.state (.error failure) s') (number : LineNumber)
    (rest : List (LineNumber × String)) :
    ∃ e, runUnits ((number, unit) :: rest) s =
        (some e, { s with
          handler := s.handler.registerLine s.path ⟨unit, number⟩
          state := s'
          queue := s.queue.erase number }) ∧
      ∀ handler : Handler, handler.handle e = handler.throw failure := by
  have hregistered : Outcome s.mode s.settings (s.handler.registerLine s.path ⟨unit, number⟩).style unit s.state
      (.error failure) s' := h
  obtain ⟨e, hexecute, hhandle⟩ :=
    execute_of_error (s := { s with handler := s.handler.registerLine s.path ⟨unit, number⟩ }) hregistered
  refine ⟨e, ?_, hhandle⟩
  rw [runUnits]
  simp only [hexecute]

theorem settle_of_handle {e : Interruption} {text : String} {handler : Handler} {escaped : Option Interruption}
    (h : s.handler.handle e = ⟨text, handler, escaped⟩) : settle (some e, s) =
      (escaped, { s with handler, state := { s.state with printed := s.state.printed ++ text } }) := by
  simp only [settle, h]

def resumed (s : Session) (σ : State) (text : String) (queue : Table LineNumber String) : Session :=
  { s with state := σ.quiet.preceded text, queue }

def without (queue : Table LineNumber String) (units : List (LineNumber × String)) : Table LineNumber String :=
  units.foldl (fun queue unit => queue.erase unit.1) queue

/-- Units that succeed leave the others to be run from the state that they lead to. -/
theorem runUnits_append {units : List (LineNumber × String)} {shown : List String} {σ σ' : State}
    (h : Succeed s.mode s.settings s.handler.style σ units shown σ') (hidle : s.handler.Idle s.path)
    (rest : List (LineNumber × String)) (text : String) (queue : Table LineNumber String) :
    runUnits (units ++ rest) (s.resumed σ text queue) =
      runUnits rest (s.resumed σ' (text ++ String.join shown) (without queue units)) := by
  induction h generalizing text queue with
  | nil => simp [without]
  | @cons σ number unit units text' σ₁ shown σ' hunit _ ih =>
    have hunit' : Outcome s.mode s.settings s.handler.style unit (σ.quiet.preceded text) (.ok text') (σ₁.preceded text) :=
      hunit.preceded text
    have hstate : (σ₁.preceded text).print text' = σ₁.quiet.preceded (text ++ (σ₁.printed ++ text' ++ "\n")) := by
      simp [State.preceded, State.print, State.quiet, String.append_assoc]
    have hfirst : runUnits ((number, unit) :: (units ++ rest)) (s.resumed σ text queue) =
        runUnits (units ++ rest) (s.resumed σ₁ (text ++ (σ₁.printed ++ text' ++ "\n")) (queue.erase number)) := by
      refine (runUnits_cons_of_ok (s := s.resumed σ text queue) hidle hunit' number _).trans ?_
      rw [hstate]
      rfl
    rw [List.cons_append, hfirst, ih, String.join_cons, String.append_assoc]
    rfl

theorem runUnits_of_succeed {units : List (LineNumber × String)} {shown : List String} {σ σ' : State}
    (h : Succeed s.mode s.settings s.handler.style σ units shown σ') (hidle : s.handler.Idle s.path)
    (text : String) (queue : Table LineNumber String) :
    runUnits units (s.resumed σ text queue) =
      (none, s.resumed σ' (text ++ String.join shown) (without queue units)) := by
  have hall := runUnits_append h hidle [] text queue
  rwa [List.append_nil] at hall

/-- The first unit that fails is the last one that is run, and its line is registered for the report. -/
theorem runUnits_of_failure {before : List (LineNumber × String)} {shown : List String} {σ σ₁ σ' : State}
    {failure : Failure} (hbefore : Succeed s.mode s.settings s.handler.style σ before shown σ₁)
    (h : Outcome s.mode s.settings s.handler.style unit σ₁.quiet (.error failure) σ') (hidle : s.handler.Idle s.path)
    (number : LineNumber) (after : List (LineNumber × String)) (text : String) (queue : Table LineNumber String) :
    ∃ e, runUnits (before ++ (number, unit) :: after) (s.resumed σ text queue) =
        (some e, { s with
          handler := s.handler.registerLine s.path ⟨unit, number⟩
          state := σ'.preceded (text ++ String.join shown)
          queue := without queue (before ++ [(number, unit)]) }) ∧
      ∀ handler : Handler, handler.handle e = handler.throw failure := by
  have h' := h.preceded (text ++ String.join shown)
  obtain ⟨e, hrun, hhandle⟩ := runUnits_cons_of_error
    (s := s.resumed σ₁ (text ++ String.join shown) (without queue before)) h' number after
  refine ⟨e, ?_, hhandle⟩
  rw [runUnits_append hbefore hidle, hrun, without, without, List.foldl_append]
  rfl

/-- A session with nothing to run, which no failure ends. -/
structure Waits (s : Session) : Prop where
  queue : s.queue = []
  fatal : s.handler.fatal = false
  idle : s.handler.Idle s.path

/-- A unit that is added to such a session is run at once, and the session waits again, whatever became of the unit. -/
theorem Waits.runHandled_add {result : Except Failure String} (h : s.Waits)
    (hunit : Outcome s.mode s.settings s.handler.style unit s.state result s') (number : LineNumber) :
    ∃ handler : Handler, handler.fatal = false ∧ handler.Idle s.path ∧
      (s.add unit number).runHandled = (none, { s with
        handler
        state := { s' with
          printed := s'.printed ++ (s.handler.registerLine s.path ⟨unit, number⟩).shown result } }) := by
  have hqueue : (s.add unit number).queue = [(number, unit)] := by simp [add, h.queue, Table.put]
  have herase : Table.erase [(number, unit)] number = [] := by simp [Table.erase]
  have hrun : (s.add unit number).run = runUnits [(number, unit)] (s.add unit number) := by rw [run, hqueue]
  cases result with
  | ok text =>
    refine ⟨s.handler, h.fatal, h.idle, ?_⟩
    have hunits := runUnits_cons_of_ok (s := s.add unit number) h.idle hunit number []
    rw [runHandled, hrun, hunits, hqueue, herase, runUnits, settle]
    simp [Handler.shown, State.print, String.append_assoc, h.queue, add]
  | error failure =>
    refine ⟨(s.handler.registerLine s.path ⟨unit, number⟩).clear, h.fatal, ?_, ?_⟩
    · exact Handler.idle_clear (by simp [Handler.registerLine, Table.get?_put])
    obtain ⟨e, hunits, hhandle⟩ := runUnits_cons_of_error (s := s.add unit number) hunit number []
    have hthrow : (s.handler.registerLine s.path ⟨unit, number⟩).handle e =
        ⟨(s.handler.registerLine s.path ⟨unit, number⟩).report failure,
          (s.handler.registerLine s.path ⟨unit, number⟩).clear, none⟩ := by
      have hfatal : (s.handler.registerLine s.path ⟨unit, number⟩).fatal = false := h.fatal
      rw [hhandle, Handler.throw, hfatal]
      rfl
    rw [runHandled, hrun, hunits, hqueue, herase, settle_of_handle hthrow]
    simp [Handler.shown, h.queue, add]

end Session
end Scriptlet
