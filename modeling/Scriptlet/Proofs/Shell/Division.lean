import Scriptlet.Proofs.Session.Units
import Scriptlet.Proofs.Shell.Rest

/-! Lines that are typed in and lines of a file.  The shell and the reading of a file gather the same units from the same
lines; only a unit that is open at the end is run from a file, while the shell waits for more of it. -/
namespace Scriptlet

namespace SourceUnit
open Text
variable {pending line : List Char} {number : Nat} {rest : List (List Char)}

theorem ofLines_cons_of_open (hopen : hasOpenBrackets (join pending line)) :
    ofLines pending number (line :: rest) = ofLines (join pending line) (number + 1) rest := by
  simp [ofLines, hopen]

theorem ofLines_cons_of_closed (hline : trim line ≠ []) (hclosed : hasOpenBrackets (join pending line) = false) :
    ofLines pending number (line :: rest) = (number + 1, join pending line) :: ofLines [] (number + 1) rest := by
  simp [ofLines, hclosed, join_ne_nil hline]

theorem ofLines_cons_of_blank (htrimmed : trim pending = pending) (hopens : pending ≠ [] ↔ hasOpenBrackets pending)
    (hline : trim line = []) : ofLines pending number (line :: rest) = ofLines pending (number + 1) rest := by
  rw [ofLines, join_of_blank htrimmed hline]
  by_cases hpending : pending = []
  · simp [hpending]
  · simp [hopens.mp hpending]

end SourceUnit

namespace Shell
open Session SourceUnit Text

def leftOpen (sh : Shell) : List String := if sh.pending = [] then [] else [String.ofList sh.pending]

variable {sh sh' : Shell} {line : List Char} {lines : List (List Char)} {units : List (LineNumber × String)}

theorem Answered.closed (h : Answered sh line units sh') : ∀ u ∈ units, hasOpenBrackets u.2.toList = false := by
  cases h with
  | blank _ | help _ | continued _ _ => simp
  | completed _ hunit hclosed _ _ _ => simpa [hunit] using hclosed

/-- What is run for a line and what is pending then are what the loop over the lines of a file makes of the line. -/
theorem Answered.ofLines_cons (h : Answered sh line units sh') (hsh : sh.AtRest) (hline : Command.ofLine line ≠ .help)
    (number : Nat) (rest : List (List Char)) : (ofLines sh.pending number (line :: rest)).map (String.ofList ·.2) =
      units.map (·.2) ++ (ofLines sh'.pending (number + 1) rest).map (String.ofList ·.2) := by
  cases h with
  | blank hblank => simp [ofLines_cons_of_blank hsh.trimmed hsh.opens hblank]
  | help hhelp => exact absurd hhelp hline
  | continued _ hopen => simp [ofLines_cons_of_open hopen]
  | completed hcode hunit hclosed _ _ _ => simp [ofLines_cons_of_closed hcode hclosed, hunit]

/-- A shell at rest runs the units of a file with the same lines, each on its own, and goes on with what follows. -/
theorem AtRest.converseBy_append (hsh : sh.AtRest)
    (hlines : ∀ line ∈ lines, Command.ofLine line ∉ [.help, .exit, .endOfInput]) (number : Nat) :
    ∃ (units : List (LineNumber × String)) (sh' : Shell), sh'.AtRest ∧ (∀ u ∈ units, hasOpenBrackets u.2.toList = false) ∧
      units.map (·.2) ++ sh'.leftOpen = (ofLines sh.pending number lines).map (String.ofList ·.2) ∧
      ∀ rest queues, sh.converseBy recorded (lines ++ rest) queues =
        sh'.converseBy recorded rest (queues ++ units.map ([·])) := by
  induction lines generalizing sh number with
  | nil =>
    refine ⟨[], sh, hsh, by simp, ?_, fun rest queues => by simp⟩
    by_cases hpending : sh.pending = [] <;> simp [leftOpen, ofLines, hpending]
  | cons line lines ih =>
    obtain ⟨hcommand, hlines⟩ := List.forall_mem_cons.mp hlines
    obtain ⟨hhelp, hexit, hend⟩ : Command.ofLine line ≠ .help ∧ Command.ofLine line ≠ .exit ∧
        Command.ofLine line ≠ .endOfInput := by simpa using hcommand
    have hasked : sh.ask.AtRest := hsh.shows sh.prompt.text
    obtain ⟨-, hstop, hanswered⟩ := hasked.respond line
    have hgoes : (sh.ask.respond line).stop = false := by simpa [hexit, hend] using hstop
    obtain ⟨now, hhanded, hanswered⟩ := hanswered hgoes
    obtain ⟨units, sh', hsh', hclosed, hunits, hconverse⟩ := ih (hasked.answered hanswered) hlines (number + 1)
    refine ⟨now ++ units, sh', hsh', ?_, ?_, fun rest queues => ?_⟩
    · exact List.forall_mem_append.mpr ⟨hanswered.closed, hclosed⟩
    · have hfirst := hanswered.ofLines_cons hasked hhelp number lines
      rw [List.map_append, List.append_assoc, hunits]
      exact hfirst.symm
    · rw [List.cons_append, converseBy_recorded_cons, hgoes, hhanded, if_neg Bool.false_ne_true, hconverse, List.map_append,
        List.append_assoc]

variable {read : String → Option String} {handler : Handler} {mode : String} {settings : Settings} {s : Session}

/-- Lines that are no commands are divided by the shell as they are in a file.  The shell goes on after all of them and has
run the units that the file has, in the same order and each on its own, whatever became of them; but a last unit with open
brackets is pending. -/
theorem typed_lines_divide_as_file
    (hstart : (Session.start read handler typedPath mode true settings).result = .ok s)
    (hlines : ∀ line ∈ lines, Command.ofLine line ∉ [.help, .exit, .endOfInput]) :
    ∃ (units : List (LineNumber × String)) (sh : Shell),
      (∀ rest, (new s).converseBy recorded (lines ++ rest) [] = sh.converseBy recorded rest (units.map ([·])) ∧
        ((new s).converseBy recorded (lines ++ rest) []).1 = (new s).converse (lines ++ rest)) ∧
      units.map (·.2) ++ sh.leftOpen = (ofLines [] 0 lines).map (String.ofList ·.2) ∧
      (∀ u ∈ units, hasOpenBrackets u.2.toList = false) ∧
      (sh.pending ≠ [] ↔ hasOpenBrackets sh.pending) ∧
      ∀ (read : String → Option String) (handler : Handler) (path mode content : String) (m : Mode) (typed : Bool)
        (settings : Settings), Mode.ofName? mode = some m → path ≠ typedPath → read path = some content →
        Text.lines (unifyBreaks content.toList) = lines →
          ∃ f, (Session.start read handler path mode typed settings).result = .ok f ∧
            f.queue.map (·.2) = units.map (·.2) ++ sh.leftOpen := by
  obtain ⟨units, sh, hrest, hclosed, hunits, hconverse⟩ := (atRest_new hstart).converseBy_append hlines 0
  refine ⟨units, sh, fun rest => ⟨hconverse rest [], converseBy_recorded _ _ _⟩, hunits, hclosed, hrest.opens, ?_⟩
  intro read handler path mode content m typed settings hmode hpath hread hcontent
  refine ⟨_, start_of_file read handler typed settings hmode hpath hread, ?_⟩
  rw [hunits, ← hcontent, unitsOf, List.map_map]
  rfl

/-- The first unit fails, the second is no program, and the third is not complete. -/
theorem typed_lines_divide_failing_units :
    (Session.start (fun _ => none) (.new true .plain) typedPath "evaluator" true narrow).result = .ok started.session ∧
    (∀ line ∈ ["f(", "  ", "1)", "let", "[2"].map String.toList,
      Command.ofLine line ∉ [.help, .exit, .endOfInput]) ∧
    ∃ (units : List (LineNumber × String)) (sh : Shell),
      (started.converseBy recorded (["f(", "  ", "1)", "let", "[2"].map String.toList) []).2 = units.map ([·]) ∧
      units.map (·.2) ++ sh.leftOpen = ["f( 1)", "let", "[2"] ∧
      ∃ f, (Session.start (fun _ => some "f(\n  \n1)\r\nlet\n[2") (.new true .plain) "a.txt" "evaluator" false
          ⟨.null, .flat, 100, 100⟩).result = .ok f ∧ f.queue.map (·.2) = ["f( 1)", "let", "[2"] := by
  have hlines : ∀ line ∈ ["f(", "  ", "1)", "let", "[2"].map String.toList,
      Command.ofLine line ∉ [.help, .exit, .endOfInput] := by decide
  obtain ⟨units, sh, hconverse, hunits, -, -, hfile⟩ := typed_lines_divide_as_file start_started hlines
  obtain ⟨f, hf, hqueue⟩ := hfile (fun _ => some "f(\n  \n1)\r\nlet\n[2") (.new true .plain) "a.txt" "evaluator" _
    .evaluator false ⟨.null, .flat, 100, 100⟩ rfl (by decide) rfl rfl
  have hdivides : units.map (·.2) ++ sh.leftOpen = ["f( 1)", "let", "[2"] := hunits.trans rfl
  -- At the end of the input nothing more is run.
  have hend : (sh.converseBy recorded [] (units.map ([·]))).2 = units.map ([·]) := by
    have hcommand : Command.ofLine "EOF".toList = .endOfInput := by cbv
    have hnone : sh.ask.handed "EOF".toList = [] := handed_of_not_code fun cs hcode => by
      cases hcommand.symm.trans hcode
    rw [converseBy, respondBy_recorded, hnone, List.append_nil]
  have hall := (hconverse []).1
  rw [List.append_nil] at hall
  exact ⟨start_started, hlines, units, sh, (congrArg (·.2) hall).trans hend, hdivides, f, hf, hqueue.trans hdivides⟩

end Shell
end Scriptlet
