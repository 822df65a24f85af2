import Mathlib
import Scriptlet.Launch
import Scriptlet.Proofs.Session.Running
import Scriptlet.Proofs.Session.Units

/-! Runs of files.  The units of a file are run in order up to the first that fails, which is reported with the number and
the text of its line; the status tells whether there is one. -/
namespace Scriptlet

theorem Mode.ofName?_name (m : Mode) : ofName? m.name = some m := by cases m <;> rfl

namespace Launch
open Session Text

section
variable (style : Style) (path : String) (mode : Mode) (settings : Settings) (content : String)

/-- The units of a file, by the numbers of their lines. -/
def fileUnits : List (LineNumber × String) := (unitsOf content).map entry

def fileSession : Session := ⟨⟨true, style, [(path, none)]⟩, path, mode, settings, .initial, fileUnits content⟩

variable {style path mode settings content} {before after : List (LineNumber × String)} {number : LineNumber} {unit : String}
  {shown : List String} {s s' : State} {failure : Failure}

theorem unit_ne_empty (h : fileUnits content = before ++ (number, unit) :: after) : unit ≠ "" := by
  obtain ⟨earlier, others, hunits, rfl, hothers⟩ := List.map_eq_append_iff.mp h
  obtain ⟨u, later, rfl, hu, rfl⟩ := List.map_eq_cons_iff.mp hothers
  obtain ⟨_, group, _, -, -, rfl, hgroup, -⟩ := (SourceUnit.divides_ofLines _).placed earlier u later hunits
  obtain ⟨-, rfl⟩ := Prod.mk.inj hu
  intro hempty
  exact hgroup.gathered_ne_nil (by simpa using hempty)

theorem idle_fileSession : (fileSession style path mode settings content).handler.Idle path := by
  simp [fileSession, Handler.Idle, Table.get?]

theorem fileSession_eq_resumed : fileSession style path mode settings content =
    (fileSession style path mode settings content).resumed .initial "" (fileUnits content) := rfl

theorem runHandled_of_succeed (path : String)
    (h : Succeed mode settings style .initial (fileUnits content) shown s) :
    ∃ s', (fileSession style path mode settings content).runHandled = (none, s') ∧
      s'.state.printed = String.join shown := by
  have hrun := runUnits_of_succeed (s := fileSession style path mode settings content) h idle_fileSession ""
    (fileUnits content)
  refine ⟨_, congrArg settle hrun, ?_⟩
  simp [resumed, State.quiet]

theorem runHandled_of_failure (path : String) (hunits : fileUnits content = before ++ (number, unit) :: after)
    (hbefore : Succeed mode settings style .initial before shown s)
    (h : Outcome mode settings style unit s.quiet (.error failure) s') :
    ∃ s'', (fileSession style path mode settings content).runHandled = (some (.exit "1"), s'') ∧
      s''.state.printed = String.join shown ++ s'.printed ++ Handler.lineReport style path ⟨unit, number⟩ failure := by
  obtain ⟨e, hrun, hhandle⟩ := runUnits_of_failure (s := fileSession style path mode settings content) hbefore h
    idle_fileSession number after "" (fileUnits content)
  have hregistered : (fileSession style path mode settings content).handler.registerLine
      (fileSession style path mode settings content).path ⟨unit, number⟩ = ⟨true, style, [(path, some ⟨unit, number⟩)]⟩ := by
    simp [fileSession, Handler.registerLine, Table.put]
  have hreport : Handler.report ⟨true, style, [(path, some ⟨unit, number⟩)]⟩ failure =
      Handler.lineReport style path ⟨unit, number⟩ failure :=
    Handler.report_eq_lineReport (unit_ne_empty hunits) h.internal_eq_false true style path
  have hthrow : Handler.handle ⟨true, style, [(path, some ⟨unit, number⟩)]⟩ e =
      ⟨Handler.lineReport style path ⟨unit, number⟩ failure, ⟨true, style, [(path, some ⟨unit, number⟩)]⟩,
        some (.exit "1")⟩ := by
    rw [hhandle, Handler.throw, if_pos rfl, hreport]
  have hrun' : (fileSession style path mode settings content).run =
      runUnits (before ++ (number, unit) :: after) (fileSession style path mode settings content) := by
    rw [← hunits]
    rfl
  rw [hregistered] at hrun
  rw [runHandled, hrun', fileSession_eq_resumed, hrun, settle_of_handle hthrow]
  exact ⟨_, rfl, by simp⟩

section
variable {host : Host} {args : List String} {options : Options} {frames : Nat}
  (hargs : CommandLine.parse args = .ok options) (hfile : options.file = some path)
  (hlimit : setLimit host false options.recursionLimit = .ok frames)
  (hsettings : host.settings options.onEmpty frames = settings) (hpath : path ≠ typedPath)
  (hread : host.read path = some content)
include hargs hfile hlimit hsettings hpath hread

theorem launch_of_file (input : String) : launch host args input =
    finish (fileSession host.style path options.mode settings content).runHandled.1
      (fileSession host.style path options.mode settings content).runHandled.2 := by
  have hplan : plan host args = .ok (.file path options.mode settings) := by
    simp only [plan, hargs, hfile, Option.isNone_some, hlimit, hsettings]
  have hstart := start_of_file host.read (.new true host.style) false settings (Mode.ofName?_name options.mode) hpath hread
  simp only [launch, hplan, runFile, hstart]
  rfl

/-- The run of a file ends with status 0 exactly if all of its units succeed.  Then the output is what they printed and what
is shown for them, unit by unit.  Otherwise there is a first unit that fails, and the output ends with what that unit
printed and a report of its failure, whatever units come after it. -/
theorem file_stops_at_first_failure (input : String) :
    ((launch host args input).status = 0 ↔
      ∃ shown s, Succeed options.mode settings host.style .initial (fileUnits content) shown s) ∧
    (∀ shown s, Succeed options.mode settings host.style .initial (fileUnits content) shown s →
      launch host args input = ⟨0, String.join shown⟩) ∧
    (∀ before number unit after shown s failure s', fileUnits content = before ++ (number, unit) :: after →
      Succeed options.mode settings host.style .initial before shown s →
      Outcome options.mode settings host.style unit s.quiet (.error failure) s' →
        launch host args input =
          ⟨1, String.join shown ++ s'.printed ++ Handler.lineReport host.style path ⟨unit, number⟩ failure⟩) ∧
    ((∃ shown s, Succeed options.mode settings host.style .initial (fileUnits content) shown s) ∨
      ∃ before number unit after shown s failure s', fileUnits content = before ++ (number, unit) :: after ∧
        Succeed options.mode settings host.style .initial before shown s ∧
        Outcome options.mode settings host.style unit s.quiet (.error failure) s') := by
  have hlaunch := launch_of_file hargs hfile hlimit hsettings hpath hread input
  have hsucceeds (shown : List String) (s : State)
      (h : Succeed options.mode settings host.style .initial (fileUnits content) shown s) :
      launch host args input = ⟨0, String.join shown⟩ := by
    obtain ⟨s', hrun, hprinted⟩ := runHandled_of_succeed path h
    rw [hlaunch, hrun, finish, hprinted]
    rfl
  have hfails (before : List (LineNumber × String)) (number : LineNumber) (unit : String)
      (after : List (LineNumber × String)) (shown : List String) (s : State) (failure : Failure) (s' : State)
      (hunits : fileUnits content = before ++ (number, unit) :: after)
      (hbefore : Succeed options.mode settings host.style .initial before shown s)
      (h : Outcome options.mode settings host.style unit s.quiet (.error failure) s') :
      launch host args input =
        ⟨1, String.join shown ++ s'.printed ++ Handler.lineReport host.style path ⟨unit, number⟩ failure⟩ := by
    obtain ⟨s'', hrun, hprinted⟩ := runHandled_of_failure path hunits hbefore h
    rw [hlaunch, hrun, finish, hprinted]
    rfl
  have hcases := succeed_or_fails options.mode settings host.style .initial (fileUnits content)
  refine ⟨⟨fun hstatus => ?_, fun ⟨shown, s, h⟩ => by rw [hsucceeds shown s h]⟩, hsucceeds, hfails, hcases⟩
  rcases hcases with h | ⟨before, number, unit, after, shown, s, failure, s', hunits, hbefore, h⟩
  · exact h
  · rw [hfails before number unit after shown s failure s' hunits hbefore h] at hstatus
    cases hstatus

end

end

def thirdUnparsed : String := "let x = 1\nprint(x)\nlet \x7b0\x7d = 2\nprint(2)\n"

def thirdSettings : Settings := ⟨.null, .usual, 19992, 1000000000000000⟩

set_option maxRecDepth 8000 in
theorem thirdUnparsed_binds : Outcome .evaluator thirdSettings .plain "let x = 1" State.initial (.ok "null")
    ⟨#[], #[], #[⟨none, [("x", .int 1)]⟩], ""⟩ := by
  have hparse : Program.parseWithin ⟨.usual, 19992⟩ "let x = 1" = .ok (.program [.letStmt "x" (.int 1)]) := by cbv
  exact .value (v := .null) rfl hparse (by cbv) (by simp) (by cbv)

set_option maxRecDepth 8000 in
theorem thirdUnparsed_prints : Outcome .evaluator thirdSettings .plain "print(x)"
    ⟨#[], #[], #[⟨none, [("x", .int 1)]⟩], ""⟩ (.ok "null") ⟨#[], #[], #[⟨none, [("x", .int 1)]⟩], "1\n"⟩ := by
  have hparse : Program.parseWithin ⟨.usual, 19992⟩ "print(x)" =
      .ok (.program [.exprStmt (.call (.ident "print") [.ident "x"])]) := by cbv
  exact .value (v := .null) rfl hparse (by cbv) (by simp) (by cbv)

def thirdProgress : Parser.Progress where
  place := ⟨⟨[⟨.int, "0"⟩, ⟨.rbrace, "\x7d"⟩, ⟨.assign, "="⟩, ⟨.int, "2"⟩], 3⟩, ⟨.lbrace, "\x7b"⟩⟩
  errors := [.construct (.unexpected ⟨.lbrace, "\x7b"⟩ .identifier), .unfinished ⟨.lbrace, "\x7b"⟩ ⟨.int, "0"⟩]

set_option maxRecDepth 8000 in
theorem thirdUnparsed_stops (s : State) : Outcome .evaluator thirdSettings .plain "let \x7b0\x7d = 2" s
    (.error (.about .plain "'" "let \x7b0\x7d = 2" "' could not be parsed"
      ["Unexpected token (LBRACE, '\x7b'), expected IDENTIFIER",
        "An error occurred while parsing program: current token is (LBRACE, '\x7b'), peek token is (INT, '0')"])) s := by
  have hparse : Program.parseWithin ⟨.usual, 19992⟩ "let \x7b0\x7d = 2" = .error (.refused thirdProgress) := by cbv
  have hmessages : thirdProgress.messages = ["Unexpected token (LBRACE, '\x7b'), expected IDENTIFIER",
      "An error occurred while parsing program: current token is (LBRACE, '\x7b'), peek token is (INT, '0')"] := by decide
  exact hmessages ▸ .refused (by decide) hparse

def deepLine : String := "((((((((((((1))))))))))))"

def deepSettings : Settings := ⟨.null, .usual, 22, 1000000000000000⟩

set_option maxRecDepth 8000 in
theorem deepLine_unread (s : State) : Outcome .evaluator deepSettings .plain deepLine s
    (.error (.plain "maximum recursion depth exceeded")) s := by
  have hparse : Program.parseWithin ⟨.usual, 22⟩ deepLine = .error .exhausted := by cbv
  exact .unread (by decide) hparse

set_option maxRecDepth 8000 in
/-- The braces of the line that is no program stand in its report, and the line after it prints nothing.  Under a low limit
a line that nests too deep for it is reported likewise. -/
theorem file_stops_at_third_line : CommandLine.parse ["a.txt"] = .ok ⟨some "a.txt", .evaluator, .null, 20000⟩ ∧
    setLimit (.usual .plain fun _ => some thirdUnparsed) false 20000 = .ok 19992 ∧ "a.txt" ≠ typedPath ∧
    launch (.usual .plain fun _ => some thirdUnparsed) ["a.txt"] "" =
      ⟨1, "null\n1\nnull\n  File 'a.txt', line 3:\n    let \x7b0\x7d = 2\n" ++
        "error: 'let \x7b0\x7d = 2' could not be parsed\n\tUnexpected token (LBRACE, '\x7b'), expected IDENTIFIER\n" ++
        "\tAn error occurred while parsing program: current token is (LBRACE, '\x7b'), peek token is (INT, '0')\n"⟩ ∧
    CommandLine.parse ["--recursion-limit", "30", "a.txt"] = .ok ⟨some "a.txt", .evaluator, .null, 30⟩ ∧
    setLimit (.usual .plain fun _ => some deepLine) false 30 = .ok 22 ∧
    launch (.usual .plain fun _ => some deepLine) ["--recursion-limit", "30", "a.txt"] "" =
      ⟨1, "  File 'a.txt', line 1:\n    ((((((((((((1))))))))))))\nerror: maximum recursion depth exceeded\n"⟩ := by
  have hargs : CommandLine.parse ["a.txt"] = .ok ⟨some "a.txt", .evaluator, .null, 20000⟩ := by cbv
  have hlimit : setLimit (.usual .plain fun _ => some thirdUnparsed) false 20000 = .ok 19992 := by cbv
  have hpath : "a.txt" ≠ typedPath := by decide
  have hunits : fileUnits thirdUnparsed =
      [(1, "let x = 1"), (2, "print(x)")] ++ (3, "let \x7b0\x7d = 2") :: [(4, "print(2)")] := by cbv
  have hbefore : Succeed .evaluator thirdSettings .plain .initial
      [(1, "let x = 1"), (2, "print(x)")] _ ⟨#[], #[], #[⟨none, [("x", .int 1)]⟩], "1\n"⟩ :=
    .cons thirdUnparsed_binds (.cons thirdUnparsed_prints .nil)
  have hsettings : (Host.usual .plain fun _ => some thirdUnparsed).settings .null 19992 = thirdSettings := rfl
  obtain ⟨-, -, hfails, -⟩ := file_stops_at_first_failure hargs rfl hlimit hsettings hpath rfl ""
  have hargs' : CommandLine.parse ["--recursion-limit", "30", "a.txt"] = .ok ⟨some "a.txt", .evaluator, .null, 30⟩ := by
    cbv
  have hlimit' : setLimit (.usual .plain fun _ => some deepLine) false 30 = .ok 22 := by cbv
  have hsettings' : (Host.usual .plain fun _ => some deepLine).settings .null 22 = deepSettings := rfl
  have hunits' : fileUnits deepLine = [] ++ (1, deepLine) :: [] := by cbv
  obtain ⟨-, -, hfails', -⟩ := file_stops_at_first_failure hargs' rfl hlimit' hsettings' hpath rfl ""
  exact ⟨hargs, hlimit, hpath, hfails _ _ _ _ _ _ _ _ hunits hbefore (thirdUnparsed_stops _), hargs', hlimit',
    hfails' _ _ _ _ _ _ _ _ hunits' .nil (deepLine_unread _)⟩

end Launch
end Scriptlet
