import Scriptlet.Proofs.Evaluation.Printing
import Scriptlet.Proofs.Text.Filling
import Scriptlet.Session.Basic

/-! What comes of a unit.  It succeeds with a text to show, or it fails with something to report; either way the state is
left as the programs of the unit made it, and nothing of that depends on what was printed before. -/
namespace Scriptlet
namespace Session
open Text

section
variable (mode : Mode) (settings : Settings) (style : Style) (unit : String) (s : State)

/-- From the state `s`, a unit comes to a text or to a failure and leaves a state. -/
inductive Outcome : Except Failure String → State → Prop
  | tokens (hmode : mode = .lexer) : Outcome (.ok ("\n".intercalate ((Token.ofSource unit.toList).map Token.text))) s
  | refused {p} (hmode : mode ≠ .lexer)
      (hparse : Program.parseWithin settings.room unit = .error (.refused p)) :
      Outcome (.error (.about style "'" unit "' could not be parsed" p.messages)) s
  /-- The unit nests too deep to be read. -/
  | unread (hmode : mode ≠ .lexer)
      (hparse : Program.parseWithin settings.room unit = .error .exhausted) :
      Outcome (.error (.plain "maximum recursion depth exceeded")) s
  | tree {n} (hmode : mode = .parser) (hparse : Program.parseWithin settings.room unit = .ok n)
      (hroom : n.frames settings.stack.writingNodes ≤ settings.frames) : Outcome (.ok n.text) s
  /-- The syntax tree nests too deep to be shown. -/
  | undrawn {n} (hmode : mode = .parser) (hparse : Program.parseWithin settings.room unit = .ok n)
      (hfull : settings.frames < n.frames settings.stack.writingNodes) :
      Outcome (.error (.plain "maximum recursion depth exceeded")) s
  | failed {n e s'} (hmode : mode = .evaluator)
      (hparse : Program.parseWithin settings.room unit = .ok n)
      (hrun : Eval.run settings State.globalScope n s = (.value (.error e), s')) : Outcome (.error (.plain e.message)) s'
  | interrupted {n s'} (hmode : mode = .evaluator)
      (hparse : Program.parseWithin settings.room unit = .ok n)
      (hrun : Eval.run settings State.globalScope n s = (.interrupted, s')) :
      Outcome (.error (.plain "keyboard interrupt")) s'
  | value {n v text s'} (hmode : mode = .evaluator)
      (hparse : Program.parseWithin settings.room unit = .ok n)
      (hrun : Eval.run settings State.globalScope n s = (.value v, s')) (hv : ∀ e, v ≠ .error e)
      (htext : (Run.textOf settings.stack settings.frames v s').1 = .ok text) : Outcome (.ok text) s'
  /-- The value nests too deep to be shown. -/
  | unshown {n v why s'} (hmode : mode = .evaluator)
      (hparse : Program.parseWithin settings.room unit = .ok n)
      (hrun : Eval.run settings State.globalScope n s = (.value v, s')) (hv : ∀ e, v ≠ .error e)
      (htext : (Run.textOf settings.stack settings.frames v s').1 = .error why) :
      Outcome (.error (.plain "maximum recursion depth exceeded")) s'

end

section
variable {mode : Mode} {settings : Settings} {style : Style} {unit : String} {s s' s'' : State}
  {result : Except Failure String}

theorem exists_outcome (mode : Mode) (settings : Settings) (style : Style) (unit : String) (s : State) :
    ∃ result s', Outcome mode settings style unit s result s' := by
  by_cases hlexer : mode = .lexer
  · exact ⟨_, _, .tokens hlexer⟩
  rcases hparse : Program.parseWithin settings.room unit with (p | _) | n
  · exact ⟨_, _, .refused hlexer hparse⟩
  · exact ⟨_, _, .unread hlexer hparse⟩
  by_cases hparser : mode = .parser
  · rcases Nat.lt_or_ge settings.frames (n.frames settings.stack.writingNodes) with hfull | hroom
    · exact ⟨_, _, .undrawn hparser hparse hfull⟩
    · exact ⟨_, _, .tree hparser hparse hroom⟩
  have hmode : mode = .evaluator := by
    cases mode <;> trivial
  rcases hrun : Eval.run settings State.globalScope n s with ⟨v | _, s'⟩
  · by_cases hv : ∃ e, v = .error e
    · obtain ⟨e, rfl⟩ := hv
      exact ⟨_, _, .failed hmode hparse hrun⟩
    · have hv : ∀ e, v ≠ .error e := fun e heq => hv ⟨e, heq⟩
      cases htext : (Run.textOf settings.stack settings.frames v s').1 with
      | ok text => exact ⟨_, _, .value hmode hparse hrun hv htext⟩
      | error why => exact ⟨_, _, .unshown hmode hparse hrun hv htext⟩
  · exact ⟨_, _, .interrupted hmode hparse hrun⟩

/-- What was printed before makes no difference to a unit. -/
theorem Outcome.preceded (h : Outcome mode settings style unit s result s') (text : String) :
    Outcome mode settings style unit (s.preceded text) result (s'.preceded text) := by
  have hrun {n result s'} (hrun : Eval.run settings State.globalScope n s = (result, s')) :
      Eval.run settings State.globalScope n (s.preceded text) = (result, s'.preceded text) := by
    rw [Eval.run_preceded, hrun]
  have htext (s : State) (v : Value) : (Run.textOf settings.stack settings.frames v (s.preceded text)).1 =
      (Run.textOf settings.stack settings.frames v s).1 :=
    congrArg (·.1) (Run.mirrors_textOf (s := s) (State.veil_preceded text) v)
  cases h with
  | tokens hmode => exact .tokens hmode
  | refused hmode hparse => exact .refused hmode hparse
  | unread hmode hparse => exact .unread hmode hparse
  | tree hmode hparse hroom => exact .tree hmode hparse hroom
  | undrawn hmode hparse hfull => exact .undrawn hmode hparse hfull
  | failed hmode hparse h => exact .failed hmode hparse (hrun h)
  | interrupted hmode hparse h => exact .interrupted hmode hparse (hrun h)
  | value hmode hparse h hv hshown => exact .value hmode hparse (hrun h) hv (by rwa [htext])
  | unshown hmode hparse h hv hshown => exact .unshown hmode hparse (hrun h) hv (by rwa [htext])

theorem Outcome.unique {result' : Except Failure String} (h : Outcome mode settings style unit s result s')
    (h' : Outcome mode settings style unit s result' s'') : result = result' ∧ s' = s'' := by
  -- The mode, the parser and the run each tell which case it is.
  cases h <;> cases h' <;> grind

theorem Outcome.internal_eq_false {failure : Failure} (h : Outcome mode settings style unit s (.error failure) s') :
    failure.internal = false := by
  cases h <;> rfl

end

section
variable {s : Session} {unit : String} {s' : State}

theorem evaluate_of_value {n : Node} {v : Value}
    (hrun : Eval.run s.settings State.globalScope n s.state = (.value v, s')) (hv : ∀ e, v ≠ .error e) :
    s.evaluate n = ((Run.textOf s.settings.stack s.settings.frames v s').1.mapError fun _ => .nesting,
      { s with state := s' }) := by
  unfold evaluate
  rw [hrun]
  cases v with
  | error e => exact absurd rfl (hv e)
  | _ =>
    dsimp only
    generalize Run.textOf s.settings.stack s.settings.frames _ s' = made
    rcases made with ⟨_ | text, _⟩ <;> rfl

theorem execute_of_ok {text : String} (h : Outcome s.mode s.settings s.handler.style unit s.state (.ok text) s') :
    s.execute unit = (.ok text, { s with state := s' }) := by
  obtain ⟨handler, path, mode, settings, state, queue⟩ := s
  cases h with
  | tokens hmode =>
    obtain rfl : mode = .lexer := hmode
    rfl
  | tree hmode hparse hroom =>
    obtain rfl : mode = .parser := hmode
    simp [execute, hparse, describe, hroom]
  | value hmode hparse hrun hv htext =>
    obtain rfl : mode = .evaluator := hmode
    simp only [execute, hparse, evaluate_of_value hrun hv, htext]
    rfl

/-- What interrupts a session over a unit that fails is reported as that failure. -/
theorem execute_of_error {failure : Failure}
    (h : Outcome s.mode s.settings s.handler.style unit s.state (.error failure) s') :
    ∃ e, s.execute unit = (.error e, { s with state := s' }) ∧
      ∀ handler : Handler, handler.handle e = handler.throw failure := by
  obtain ⟨handler, path, mode, settings, state, queue⟩ := s
  cases h with
  | @refused p hmode hparse =>
    have hrefused := Interruption.ofTemplate_eq_about handler.style "'" unit "' could not be parsed" p.messages
      (by decide) (by decide)
    refine ⟨.failure _, ?_, fun _ => rfl⟩
    cases mode with
    | lexer => exact absurd rfl hmode
    | _ => simpa [execute, hparse] using hrefused
  | unread hmode hparse =>
    refine ⟨.nesting, ?_, fun _ => rfl⟩
    cases mode with
    | lexer => exact absurd rfl hmode
    | _ => simp [execute, hparse]
  | undrawn hmode hparse hfull =>
    obtain rfl : mode = .parser := hmode
    exact ⟨.nesting, by simp [execute, hparse, describe, hfull], fun _ => rfl⟩
  | failed hmode hparse hrun =>
    obtain rfl : mode = .evaluator := hmode
    exact ⟨.failure _, by simp [execute, hparse, evaluate, hrun], fun _ => rfl⟩
  | interrupted hmode hparse hrun =>
    obtain rfl : mode = .evaluator := hmode
    exact ⟨.keyboard, by simp [execute, hparse, evaluate, hrun], fun _ => rfl⟩
  | unshown hmode hparse hrun hv htext =>
    obtain rfl : mode = .evaluator := hmode
    refine ⟨.nesting, ?_, fun _ => rfl⟩
    simp only [execute, hparse, evaluate_of_value hrun hv, htext]
    rfl

end

end Session
end Scriptlet
