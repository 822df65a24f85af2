import Mathlib
import Scriptlet.Proofs.Session.Halting
import Scriptlet.Proofs.Session.Running
import Scriptlet.Proofs.Tokens.Joining
import Scriptlet.Shell

/-! The shell between lines.  Whatever a line brings about, a shell that goes on afterwards is at rest again: nothing is
queued, no line is registered for a report, and the prompt tells whether a unit is still open. -/
namespace Scriptlet

namespace SourceUnit
open Text
variable {pending line : List Char}

theorem join_trim (pending line : List Char) : join pending (trim line) = join pending line := by
  simp only [join, trim_trim]

theorem trim_join (pending line : List Char) : trim (join pending line) = join pending line := by
  unfold join
  split <;> exact trim_trim _

theorem join_of_blank (hpending : trim pending = pending) (hline : trim line = []) : join pending line = pending := by
  unfold join
  split
  · next h => rw [hline, List.isEmpty_iff.mp h]
  · rw [hline, trim_append_blank (List.all_eq_true.mp rfl), hpending]

theorem join_ne_nil (hline : trim line ≠ []) : join pending line ≠ [] := by
  unfold join
  split
  · exact hline
  · intro h
    obtain ⟨c, rest, hcons⟩ := List.exists_cons_of_ne_nil hline
    have hblank : isBlank c := isBlank_of_trim_eq_nil h c (by simp [hcons])
    have hhead : isBlank c = false := head?_trim line c (by simp [hcons])
    simp [hblank] at hhead

end SourceUnit

namespace Command
open Text
variable {line cs : List Char}

theorem ofLine_eq_code (h : ofLine line = .code cs) : cs = trim line ∧ trim line ≠ [] := by
  unfold ofLine at h
  split at h
  · cases h
  · cases h
  · next heq => exact ⟨by rw [heq]; exact (Command.code.inj h).symm, by simp [heq]⟩
  · next hnil _ _ =>
    split at h
    · cases h
    · cases h
    · cases h
    · exact ⟨(Command.code.inj h).symm, hnil⟩

theorem trim_eq_nil_of_nothing (h : ofLine line = .nothing) : trim line = [] := by
  unfold ofLine at h
  split at h
  · assumption
  · cases h
  · cases h
  · split at h <;> cases h

end Command

namespace Shell
open Session SourceUnit Text

def shows (sh : Shell) (text : String) : Shell :=
  { sh with session := { sh.session with state :=
    { sh.session.state with printed := sh.session.state.printed ++ text } } }

theorem say_eq_shows (sh : Shell) (text : String) : sh.say text = sh.shows (text ++ "\n") := by
  simp [say, shows, State.print, String.append_assoc]

/-- Runs a session and records the queue that it runs. -/
def recorded (s : Session) : StateM (List (Table LineNumber String)) (Option Interruption × Session) := fun queues =>
  (s.runHandled, queues ++ [s.queue])

def handed (sh : Shell) (line : List Char) : List (Table LineNumber String) := (sh.respondBy recorded line []).2

def nextNumber (sh : Shell) : LineNumber := (sh.lineNumber + 1 : Nat)

/-- Waiting for a line, with the state of the programs ready for more of them. -/
structure AtRest (sh : Shell) : Prop where
  waits : sh.session.Waits
  path : sh.session.path = typedPath
  usable : sh.session.state.Usable
  prompt : sh.prompt.text = if sh.pending = [] then ">> " else ".. "
  opens : sh.pending ≠ [] ↔ hasOpenBrackets sh.pending
  trimmed : trim sh.pending = sh.pending

/-- What a line can do to a shell at rest that goes on, and the units that the session is handed. -/
inductive Answered (sh : Shell) (line : List Char) : List (LineNumber × String) → Shell → Prop
  | blank (hline : trim line = []) : Answered sh line [] sh
  | help (hline : Command.ofLine line = .help) : Answered sh line [] (sh.say helpText)
  | continued (hline : trim line ≠ []) (hopen : hasOpenBrackets (join sh.pending line)) :
      Answered sh line [] { sh with
        pending := join sh.pending line
        lineNumber := sh.lineNumber + 1
        prompt := .continuing }
  /-- The unit ends in some way and leaves a state, to which what is shown of it is added. -/
  | completed {unit result s' handler} (hline : trim line ≠ []) (hunit : unit = String.ofList (join sh.pending line))
      (hclosed : hasOpenBrackets (join sh.pending line) = false)
      (houtcome : Outcome sh.session.mode sh.session.settings sh.session.handler.style unit sh.session.state result s')
      (hfatal : handler.fatal = false) (hidle : handler.Idle sh.session.path) :
      Answered sh line [(sh.nextNumber, unit)]
        { session := { sh.session with
            handler
            state := { s' with printed := s'.printed ++
              (sh.session.handler.registerLine sh.session.path ⟨unit, sh.nextNumber⟩).shown result } }
          pending := []
          lineNumber := sh.lineNumber + 1
          prompt := .ready }

/-- Lines after each of which the shell goes on.  It may show texts in between. -/
inductive Conversation : Shell → List (List Char) → Shell → Prop
  | nil {sh} : Conversation sh [] sh
  | shown {sh lines sh'} (text : String) (hrest : Conversation (sh.shows text) lines sh') : Conversation sh lines sh'
  | line {sh line lines sh'} (hgoes : (sh.respond line).stop = false)
      (hrest : Conversation (sh.respond line).shell lines sh') : Conversation sh (line :: lines) sh'

variable {sh sh' : Shell} {line cs : List Char} {units : List (LineNumber × String)}

section
variable {after : Shell}

theorem respond_of_gather_none (hline : Command.ofLine line = .code cs) (hgather : sh.gather cs = (none, after)) :
    sh.respond line = ⟨false, none, after⟩ ∧ sh.handed line = [] := by
  simp [respond, handed, respondBy, hline, typed, hgather, bind, StateT.bind, pure, StateT.pure, Id.run]

theorem respond_of_gather_some {unit : List Char} {escaped : Option Interruption} {s : Session}
    (hline : Command.ofLine line = .code cs) (hgather : sh.gather cs = (some unit, after))
    (hrun : (after.session.add (String.ofList unit) after.lineNumber).runHandled = (escaped, s)) :
    sh.respond line = ⟨escaped.isSome, escaped, { after with session := s }⟩ ∧
      sh.handed line = [(after.session.add (String.ofList unit) after.lineNumber).queue] := by
  simp [respond, handed, respondBy, hline, typed, hgather, runUnit, recorded, hrun, bind, StateT.bind, pure, StateT.pure,
    Id.run]

theorem handed_of_not_code (hline : ∀ cs, Command.ofLine line ≠ .code cs) : sh.handed line = [] := by
  unfold handed respondBy
  cases h : Command.ofLine line with
  | code cs => exact absurd h (hline cs)
  | _ => rfl

/-- Recording what is run changes nothing about what comes of a line. -/
theorem respondBy_recorded (sh : Shell) (line : List Char) (queues : List (Table LineNumber String)) :
    sh.respondBy recorded line queues = (sh.respond line, queues ++ sh.handed line) := by
  unfold handed respond respondBy
  cases Command.ofLine line with
  | code cs =>
    rcases hgather : sh.gather cs with ⟨_ | unit, after⟩
    · simp [typed, hgather, bind, StateT.bind, pure, StateT.pure, Id.run]
    · simp [typed, hgather, runUnit, recorded, bind, StateT.bind, pure, StateT.pure, Id.run]
  | _ => simp [pure, StateT.pure, Id.run]

theorem converse_cons (sh : Shell) (line : List Char) (lines : List (List Char)) : sh.converse (line :: lines) =
    if (sh.ask.respond line).stop then sh.ask.respond line else (sh.ask.respond line).shell.converse lines := by
  simp only [converse, converseBy, Id.run_bind]
  exact apply_ite Id.run _ _ _

theorem converseBy_recorded_cons (sh : Shell) (line : List Char) (lines : List (List Char))
    (queues : List (Table LineNumber String)) : sh.converseBy recorded (line :: lines) queues =
      if (sh.ask.respond line).stop then (sh.ask.respond line, queues ++ sh.ask.handed line)
      else (sh.ask.respond line).shell.converseBy recorded lines (queues ++ sh.ask.handed line) := by
  simp only [converseBy, bind, StateT.bind, respondBy_recorded]
  split <;> rfl

theorem converseBy_recorded (sh : Shell) (lines : List (List Char)) (queues : List (Table LineNumber String)) :
    (sh.converseBy recorded lines queues).1 = sh.converse lines := by
  induction lines generalizing sh queues with
  | nil => exact congrArg (·.1) (respondBy_recorded sh.ask "EOF".toList queues)
  | cons line lines ih =>
    rw [converseBy_recorded_cons, converse_cons]
    split
    · rfl
    · exact ih _ _

end

theorem AtRest.shows (h : sh.AtRest) (text : String) : (sh.shows text).AtRest where
  waits := ⟨h.waits.queue, h.waits.fatal, h.waits.idle⟩
  path := h.path
  usable := h.usable.printed _
  prompt := h.prompt
  opens := h.opens
  trimmed := h.trimmed

theorem AtRest.answered (h : sh.AtRest) (hline : Answered sh line units sh') : sh'.AtRest := by
  cases hline with
  | blank _ => exact h
  | help _ =>
    rw [say_eq_shows]
    exact h.shows _
  | continued hline hopen =>
    have hne : join sh.pending line ≠ [] := join_ne_nil hline
    exact ⟨h.waits, h.path, h.usable, by simp [Prompt.text, hne], by simp [hne, hopen], trim_join _ _⟩
  | completed _ _ _ houtcome hfatal hidle =>
    exact ⟨⟨h.waits.queue, hfatal, hidle⟩, h.path, (houtcome.usable h.usable).printed _, by simp [Prompt.text],
      ⟨fun h => absurd rfl h, fun h => by cases h⟩, rfl⟩

theorem gather_of_open (hopen : hasOpenBrackets (join sh.pending line)) : sh.gather line =
    (none, { sh with
      pending := join sh.pending line
      lineNumber := sh.lineNumber + 1
      prompt := .continuing }) := by
  rw [gather, if_pos hopen]

theorem gather_of_closed (hclosed : hasOpenBrackets (join sh.pending line) = false) : sh.gather line =
    (some (join sh.pending line), { sh with
      pending := []
      lineNumber := sh.lineNumber + 1
      prompt := .ready }) := by
  rw [gather, if_neg (by simp [hclosed])]

theorem AtRest.handed_of_closed (h : sh.AtRest) (hline : Command.ofLine line = .code cs)
    (hclosed : hasOpenBrackets (join sh.pending cs) = false) :
    sh.handed line = [[(sh.nextNumber, String.ofList (join sh.pending cs))]] := by
  obtain ⟨-, hhanded⟩ := respond_of_gather_some hline (gather_of_closed hclosed) rfl
  simpa [Session.add, h.waits.queue, Table.put, nextNumber] using hhanded

theorem AtRest.code (h : sh.AtRest) (hline : Command.ofLine line = .code cs) : (sh.respond line).escaped = none ∧
    (sh.respond line).stop = false ∧
    ∃ units, sh.handed line = units.map ([·]) ∧ Answered sh line units (sh.respond line).shell := by
  obtain ⟨rfl, hne⟩ := Command.ofLine_eq_code hline
  cases hopen : hasOpenBrackets (join sh.pending line) with
  | true =>
    have hopen' : hasOpenBrackets (join sh.pending (trim line)) := by rwa [join_trim]
    obtain ⟨hrespond, hhanded⟩ := respond_of_gather_none hline (gather_of_open hopen')
    rw [hrespond, hhanded, join_trim]
    exact ⟨rfl, rfl, [], rfl, .continued hne hopen⟩
  | false =>
    have hclosed : hasOpenBrackets (join sh.pending (trim line)) = false := by rwa [join_trim]
    obtain ⟨result, s', houtcome⟩ := exists_outcome sh.session.mode sh.session.settings sh.session.handler.style
      (String.ofList (join sh.pending (trim line))) sh.session.state
    obtain ⟨handler, hfatal, hidle, hrun⟩ := h.waits.runHandled_add houtcome sh.nextNumber
    obtain ⟨hrespond, -⟩ := respond_of_gather_some hline (gather_of_closed hclosed) hrun
    have hhanded := h.handed_of_closed hline hclosed
    rw [join_trim] at hrespond hhanded houtcome
    rw [hrespond]
    exact ⟨rfl, rfl, [_], hhanded, .completed hne rfl hopen houtcome hfatal hidle⟩

/-- A shell at rest lets nothing escape, and stops for the two commands to do so only.  Of each queue that it runs there is
one unit. -/
theorem AtRest.respond (h : sh.AtRest) (line : List Char) :
    (sh.respond line).escaped = none ∧
      ((sh.respond line).stop ↔ Command.ofLine line = .exit ∨ Command.ofLine line = .endOfInput) ∧
      ((sh.respond line).stop = false →
        ∃ units, sh.handed line = units.map ([·]) ∧ Answered sh line units (sh.respond line).shell) := by
  cases hline : Command.ofLine line with
  | code cs =>
    obtain ⟨hescaped, hgoes, hanswered⟩ := h.code hline
    exact ⟨hescaped, by simp [hgoes], fun _ => hanswered⟩
  | nothing =>
    have hhanded : sh.handed line = [] := handed_of_not_code (by simp [hline])
    simp only [Shell.respond, respondBy, hline]
    exact ⟨rfl, by simp, fun _ => ⟨[], hhanded, .blank (Command.trim_eq_nil_of_nothing hline)⟩⟩
  | help =>
    have hhanded : sh.handed line = [] := handed_of_not_code (by simp [hline])
    simp only [Shell.respond, respondBy, hline]
    exact ⟨rfl, by simp, fun _ => ⟨[], hhanded, .help hline⟩⟩
  | exit | endOfInput =>
    simp only [Shell.respond, respondBy, hline]
    exact ⟨rfl, by simp, fun h => by cases h⟩

theorem AtRest.handed_of_stop (h : sh.AtRest) (hstops : (sh.respond line).stop) : sh.handed line = [] := by
  refine handed_of_not_code ?_
  rcases (h.respond line).2.1.mp hstops with hline | hline <;> simp [hline]

theorem AtRest.handed_eq (h : sh.AtRest) (line : List Char) :
    sh.handed line = [] ∨ ∃ number unit, sh.handed line = [[(number, unit)]] := by
  cases hstops : (sh.respond line).stop with
  | true => exact .inl (h.handed_of_stop hstops)
  | false =>
    obtain ⟨units, hunits, hanswered⟩ := (h.respond line).2.2 hstops
    rw [hunits]
    generalize (sh.respond line).shell = after at hanswered
    cases hanswered with
    | blank _ | help _ | continued _ _ => exact .inl rfl
    | completed _ _ _ _ _ _ => exact .inr ⟨_, _, rfl⟩

theorem Conversation.cons {sh₁ : Shell} {lines : List (List Char)} (hrespond : sh.respond line = ⟨false, none, sh₁⟩)
    (hrest : Conversation sh₁ lines sh') : Conversation sh (line :: lines) sh' :=
  .line (by rw [hrespond]) (by rwa [hrespond])

theorem Conversation.atRest {lines : List (List Char)} (h : Conversation sh lines sh') (hsh : sh.AtRest) : sh'.AtRest := by
  induction h with
  | nil => exact hsh
  | shown text _ ih => exact ih (hsh.shows text)
  | line hgoes _ ih =>
    obtain ⟨units, -, hanswered⟩ := (hsh.respond _).2.2 hgoes
    exact ih (hsh.answered hanswered)

theorem Answered.frame (h : Answered sh line units sh') :
    Frame State.globalScope sh.session.state sh'.session.state := by
  cases h with
  | blank _ | help _ | continued _ _ => exact .of_scopes_eq rfl
  | completed _ _ _ houtcome _ _ => exact houtcome.frame.trans (.of_scopes_eq rfl)

theorem AtRest.frame_respond (h : sh.AtRest) (line : List Char) :
    Frame State.globalScope sh.session.state (sh.respond line).shell.session.state := by
  obtain ⟨-, hstop, hanswered⟩ := h.respond line
  cases hgoes : (sh.respond line).stop with
  | false =>
    obtain ⟨units, -, hanswered⟩ := hanswered hgoes
    exact hanswered.frame
  | true =>
    rcases hstop.mp hgoes with hline | hline <;>
    · simp only [Shell.respond, respondBy, hline]
      exact .of_scopes_eq rfl

theorem AtRest.respond_of_outcome (h : sh.AtRest) {number : LineNumber} {unit : String}
    {result : Except Failure String} {s' : State} (hhanded : [(number, unit)] ∈ sh.handed line)
    (hunit : Outcome sh.session.mode sh.session.settings sh.session.handler.style unit sh.session.state result s') :
    (sh.respond line).shell.session.state = { s' with
      printed := s'.printed ++ (sh.session.handler.registerLine typedPath ⟨unit, number⟩).shown result } := by
  obtain ⟨-, -, hanswered⟩ := h.respond line
  have hgoes : (sh.respond line).stop = false := by
    by_contra hstops
    rw [h.handed_of_stop (by simpa using hstops)] at hhanded
    cases hhanded
  obtain ⟨units, hunits, hline⟩ := hanswered hgoes
  rw [hunits] at hhanded
  generalize (sh.respond line).shell = after at hline
  cases hline with
  | blank _ | help _ | continued _ _ => cases hhanded
  | completed _ _ _ houtcome _ _ =>
    obtain ⟨rfl, rfl⟩ : number = sh.nextNumber ∧ unit = _ := by simpa using hhanded
    obtain ⟨rfl, rfl⟩ := houtcome.unique hunit
    rw [h.path]

variable {read : String → Option String} {handler : Handler} {mode : String} {settings : Settings} {s : Session}
  {lines : List (List Char)}

theorem atRest_new (hstart : (Session.start read handler typedPath mode true settings).result = .ok s) :
    (new s).AtRest := by
  unfold Session.start at hstart
  cases hmode : Mode.ofName? mode with
  | none => simp [hmode] at hstart
  | some m =>
    simp only [hmode, if_pos] at hstart
    obtain rfl := Except.ok.inj hstart
    exact ⟨⟨rfl, Bool.and_false _, Handler.idle_registerFile handler typedPath⟩, rfl, .initial, rfl,
      ⟨fun h => absurd rfl h, fun h => by cases h⟩, rfl⟩

/-- Whatever was typed in, a shell that goes on is at rest.  Then no line lets anything escape, and only the two commands to
stop end the shell.  All names that are bound stay bound.  A unit that is run leaves the state that comes of it, with what is
shown of it; and if it fails, that is the state in which it stopped. -/
theorem rests_between_lines (hstart : (Session.start read handler typedPath mode true settings).result = .ok s)
    (h : Conversation (new s) lines sh) : sh.AtRest ∧ ∀ line,
      (sh.respond line).escaped = none ∧
      ((sh.respond line).stop ↔ Command.ofLine line = .exit ∨ Command.ofLine line = .endOfInput) ∧
      (∀ scope name, (sh.session.state.find? scope name).isSome →
        ((sh.respond line).shell.session.state.find? scope name).isSome) ∧
      (sh.handed line = [] ∨ ∃ number unit, sh.handed line = [[(number, unit)]]) ∧
      ∀ number unit, [(number, unit)] ∈ sh.handed line → ∃ result s',
        Outcome sh.session.mode sh.session.settings sh.session.handler.style unit sh.session.state result s' ∧
        (sh.respond line).shell.session.state = { s' with
          printed := s'.printed ++ (sh.session.handler.registerLine typedPath ⟨unit, number⟩).shown result } ∧
        ∀ failure, result = .error failure → Halted sh.session.settings unit sh.session.state s' := by
  have hrest := h.atRest (atRest_new hstart)
  refine ⟨hrest, fun line => ?_⟩
  obtain ⟨hescaped, hstop, -⟩ := hrest.respond line
  refine ⟨hescaped, hstop, fun _ _ => (hrest.frame_respond line).isSome_find?, hrest.handed_eq line, ?_⟩
  intro number unit hhanded
  obtain ⟨result, s', hunit⟩ := exists_outcome sh.session.mode sh.session.settings sh.session.handler.style unit
    sh.session.state
  refine ⟨result, s', hunit, hrest.respond_of_outcome hhanded hunit, ?_⟩
  rintro failure rfl
  exact hunit.halted hrest.usable

/-- For a host with a small call stack. -/
def narrow : Settings := ⟨.null, .flat, 12, 100⟩

def started : Shell := ⟨⟨⟨false, .plain, [(typedPath, none)]⟩, typedPath, .evaluator, narrow, .initial, []⟩, [], 0, .ready⟩

theorem start_started :
    (Session.start (fun _ => none) (.new true .plain) typedPath "evaluator" true narrow).result = .ok started.session := by
  cbv

def halfway : Shell := ⟨started.session, "let x = 2 x + (".toList, 1, .continuing⟩

set_option maxRecDepth 8000 in
theorem halfway_fails : Outcome .evaluator narrow .plain "let x = 2 x + ( true)" halfway.session.state
    (.error (.plain (EvalError.infixOperands .integer .plus .boolean).message))
    ⟨#[], #[], #[⟨none, [("x", .int 2)]⟩], ""⟩ := by
  have hparse : Program.parseWithin narrow.room "let x = 2 x + ( true)" = .ok (.program
      [.letStmt "x" (.int 2), .exprStmt (.infixOp .plus (.ident "x") (.bool true))]) := by cbv
  exact .failed rfl hparse (by cbv)

set_option maxRecDepth 8000 in
theorem halfway_unread : Outcome .evaluator narrow .plain "let x = 2 x + ( ((((((((((((1)))))))))))))"
    halfway.session.state (.error (.plain "maximum recursion depth exceeded")) halfway.session.state := by
  have hparse : Program.parseWithin narrow.room "let x = 2 x + ( ((((((((((((1)))))))))))))" = .error .exhausted := by
    cbv
  exact .unread (by decide) hparse

/-- What a unit binds stays bound, though the rest of it fails.  A unit that nests too deep binds nothing. -/
theorem rests_after_failure :
    (Session.start (fun _ => none) (.new true .plain) typedPath "evaluator" true narrow).result = .ok started.session ∧
    Conversation started ["let x = 2 x + (".toList] halfway ∧ halfway.AtRest ∧
    (halfway.respond "true)".toList).escaped = none ∧
    (halfway.respond "true)".toList).shell.session.state.scopes = #[⟨none, [("x", .int 2)]⟩] ∧
    (halfway.respond "((((((((((((1)))))))))))))".toList).escaped = none ∧
    (halfway.respond "((((((((((((1)))))))))))))".toList).shell.session.state.scopes = #[⟨none, []⟩] := by
  have hfirst : started.respond "let x = 2 x + (".toList = ⟨false, none, halfway⟩ := by cbv
  have hconversation : Conversation started ["let x = 2 x + (".toList] halfway := .cons hfirst .nil
  obtain ⟨hrest, hlines⟩ := rests_between_lines start_started hconversation
  have hhanded {cs : List Char} {unit : String} (hline : Command.ofLine cs = .code cs)
      (hclosed : hasOpenBrackets (join halfway.pending cs) = false)
      (hunit : String.ofList (join halfway.pending cs) = unit) : [(2, unit)] ∈ halfway.handed cs :=
    hrest.handed_of_closed hline hclosed ▸ hunit ▸ List.mem_singleton_self _
  obtain ⟨hescaped, -, -, -, hunits⟩ := hlines "true)".toList
  obtain ⟨_, _, hunit, hstate, -⟩ := hunits _ _ (hhanded (by cbv) (by cbv) (by cbv))
  obtain ⟨rfl, rfl⟩ := hunit.unique halfway_fails
  obtain ⟨hescaped', -, -, -, hunits'⟩ := hlines "((((((((((((1)))))))))))))".toList
  obtain ⟨_, _, hunit', hstate', -⟩ := hunits' _ _ (hhanded (by cbv) (by cbv) (by cbv))
  obtain ⟨rfl, rfl⟩ := hunit'.unique halfway_unread
  exact ⟨start_started, hconversation, hrest, hescaped, by rw [hstate], hescaped', by rw [hstate']; rfl⟩

end Shell
end Scriptlet
