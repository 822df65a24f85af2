import Scriptlet.Proofs.Evaluation.Reached
import Scriptlet.Proofs.Parsing.Running
import Scriptlet.Session.Basic

/-! The states of sessions are states that programs reach which run one after the other: a session starts from the state
in which nothing has run, evaluates programs that the parser made, and prints. -/
namespace Scriptlet

theorem Handler.printed_handle (h : Handler) (e : Interruption) :
    (h.handle e).printed = "" ∨ ∃ line, (h.handle e).printed = line ++ "\n" := by
  have hthrow (f : Failure) : ∃ line, (h.throw f).printed = line ++ "\n" := by
    unfold throw
    split <;> exact ⟨_, rfl⟩
  cases e with
  | exit code => exact .inl rfl
  | failure f => exact .inr (hthrow f)
  | nesting | keyboard | internal _ => exact .inr (hthrow _)

namespace Session
open Eval

def Reached (P : Node → Prop) (s : Session) : Prop := Ran s.settings P s.state

variable {P : Node → Prop} {s : Session}

theorem Reached.evaluate (h : s.Reached P) {n : Node} (hn : P n) : (s.evaluate n).2.Reached P := by
  have hran := Ran.program h hn
  unfold Session.evaluate
  rcases hrun : Eval.run s.settings State.globalScope n s.state with ⟨result, state⟩
  rw [hrun] at hran
  dsimp only
  split
  · exact hran
  · exact hran
  · split <;> exact hran

section
variable (hP : ∀ source n, Program.parse source = .ok n → P n)
include hP

theorem Reached.execute (h : s.Reached P) (unit : String) : (s.execute unit).2.Reached P := by
  cases hmode : s.mode with
  | lexer => simpa [Session.execute, hmode] using h
  | parser =>
    rcases hparse : Program.parseWithin s.settings.room unit with (_ | _) | n <;>
      simpa [Session.execute, hmode, hparse] using h
  | evaluator =>
    rcases hparse : Program.parseWithin s.settings.room unit with (_ | _) | n
    · simpa [Session.execute, hmode, hparse] using h
    · simpa [Session.execute, hmode, hparse] using h
    · simpa [Session.execute, hmode, hparse] using h.evaluate (hP unit n (Program.parse_of_parseWithin hparse))

theorem Reached.runUnits (h : s.Reached P) (units : List (LineNumber × String)) :
    (runUnits units s).2.Reached P := by
  induction units generalizing s with
  | nil => exact h
  | cons first rest ih =>
    obtain ⟨number, unit⟩ := first
    have hregistered : Reached P { s with handler := s.handler.registerLine s.path ⟨unit, number⟩ } := h
    have hexecuted := hregistered.execute hP unit
    dsimp only [Session.runUnits]
    split
    · next e s' heq =>
      rw [heq] at hexecuted
      exact hexecuted
    · next text s' heq =>
      rw [heq] at hexecuted
      exact ih (Ran.printed hexecuted text)

/-- Running the queue, failures and their reports included, leads from such a state to such a state. -/
theorem Reached.runHandled (h : s.Reached P) : s.runHandled.2.Reached P := by
  have hrun : s.run.2.Reached P := h.runUnits hP s.queue
  unfold Session.runHandled settle
  split
  · next s' heq =>
    rw [heq] at hrun
    exact hrun
  · next e s' heq =>
    rw [heq] at hrun
    rcases s'.handler.printed_handle e with hprinted | ⟨line, hprinted⟩
    · simpa [Reached, hprinted] using hrun
    · simpa [Reached, hprinted, State.print, String.append_assoc] using Ran.printed hrun line

end

end Session
end Scriptlet
