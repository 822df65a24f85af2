import Scriptlet.Proofs.Evaluation.Blame
import Scriptlet.Proofs.Parsing.Forms

/-! The parser and the evaluator agree on syntax trees.  The trees of program texts are well-formed, functions carry
well-formed bodies wherever they go, and so no evaluation comes upon a node or an operator that has no rule. -/
namespace Scriptlet
open Relation (ReflTransGen)

def Value.Formed : Value → Prop
  | fn params body _ => (∀ x ∈ params, Token.IsName x) ∧ body.Formed .block
  | returned v => Formed v
  | _ => True

def Text.Apart (a b : String) : Prop := ¬ a.toList <+: b.toList ∧ ¬ b.toList <+: a.toList

instance (a b : String) : Decidable (Text.Apart a b) := inferInstanceAs (Decidable (_ ∧ _))

theorem Text.Apart.append {a b : String} (h : Text.Apart a b) (c : String) : Text.Apart a (b ++ c) := by
  have hb : b.toList <+: (b ++ c).toList := by simp
  refine ⟨fun ha => ?_, fun hbc => h.2 (hb.trans hbc)⟩
  rcases List.prefix_or_prefix_of_prefix ha hb with hab | hba
  · exact h.1 hab
  · exact h.2 hba

namespace EvalError

def unknownStarts : List String :=
  ["Unknown AST node", "Unknown prefix operator", "Unknown postfix operator", "Unknown infix operator INTEGER"]

/-- Errors about a node, or an operator of one operand or between integers, for which there is no rule. -/
def isUnknown : EvalError → Bool
  | unknownNode _ | unknownPrefixOp _ _ | unknownPostfixOp _ _ => true
  | unknownInfixOp left _ _ => left = .integer
  | _ => false

/-- A message that goes on differently from all of these. -/
def Sidesteps (message : String) : Prop := ∀ start ∈ unknownStarts, Text.Apart start message

instance (message : String) : Decidable (Sidesteps message) := inferInstanceAs (Decidable (∀ start ∈ unknownStarts, _))

theorem Sidesteps.append {message : String} (h : Sidesteps message) (rest : String) : Sidesteps (message ++ rest) :=
  fun start hstart => (h start hstart).append rest

theorem Sidesteps.not_begins {message : String} (h : Sidesteps message) {start : String}
    (hstart : start ∈ unknownStarts) : ¬ start.toList <+: message.toList := (h start hstart).1

/-- These texts agree in their first three characters, so any others at the start of a message tell it from them. -/
theorem sidesteps_of_take {message : String}
    (h : (message.toList.take 3).length = 3 ∧ message.toList.take 3 ≠ ['U', 'n', 'k']) : Sidesteps message := by
  intro start hstart
  have hstarts : ∀ start ∈ unknownStarts, start.toList.take 3 = ['U', 'n', 'k'] := by decide
  have hthree : (start.toList.take 3).length = 3 := by rw [hstarts start hstart]; rfl
  -- A text that starts another shares the first three characters with it, if it has as many.
  have htake {a b : List Char} (hab : a <+: b) (ha : (a.take 3).length = 3) : b.take 3 = a.take 3 := by
    obtain ⟨rest, rfl⟩ := hab
    exact List.take_append_of_le_length (by simpa using ha)
  refine ⟨fun hprefix => h.2 ?_, fun hprefix => h.2 ?_⟩
  · rw [htake hprefix hthree, hstarts start hstart]
  · rw [← htake hprefix h.1, hstarts start hstart]

/-- Only errors about such nodes and operators have messages that begin in this way. -/
theorem message_sidesteps {e : EvalError} (he : ¬ e.isUnknown) (hgiven : ∀ message, e ≠ .given message) :
    Sidesteps e.message := by
  cases e with
  | given message => exact absurd rfl (hgiven message)
  | unknownNode _ | unknownPrefixOp _ _ | unknownPostfixOp _ _ => exact (he rfl).elim
  | nesting | broken => exact sidesteps_of_take (by decide)
  | unknownInfixOp left op right =>
    have hleft : Sidesteps ("Unknown infix operator " ++ left.name) := by
      cases left with
      | integer => exact (he rfl).elim
      | _ => decide
    exact (((hleft.append _).append _).append _).append _
  | indexBeyond kind _ _ | reverseIndexBeyond kind _ _ =>
    have hkind : Sidesteps kind.name := sidesteps_of_take (by cases kind <;> decide)
    exact (((hkind.append _).append _).append _).append _
  | whileCondition _ | ifCondition _ | notIndexable _ => exact (sidesteps_of_take (by decide)).append _
  | builtinName _ | badIndex _ | notInvocable _ => exact ((sidesteps_of_take (by decide)).append _).append _
  | prefixOperand _ _ | divisionByZero _ _ | postfixTarget _ _ | arity _ _ | notSequence _ _ =>
    exact (((sidesteps_of_take (by decide)).append _).append _).append _
  | postfixUndeclared _ _ | postfixNotInteger _ _ | argumentCount _ _ =>
    exact ((((sidesteps_of_take (by decide)).append _).append _).append _).append _
  | infixOperands _ _ _ =>
    exact (((((sidesteps_of_take (by decide)).append _).append _).append _).append _).append _

theorem not_isUnknown_of_isRefusal {e : EvalError} (he : e.isRefusal) :
    ¬ e.isUnknown ∧ ∀ message, e ≠ .given message := by
  cases e with
  | arity _ _ | notSequence _ _ => exact ⟨by simp [isUnknown], by simp⟩
  | _ => cases he

end EvalError

namespace Operator

theorem applyPrefix_eq_error {op : Operator} (hop : op ∈ [minus, neg]) {v : Value} {e : EvalError}
    (h : op.applyPrefix v = .error e) : e = .prefixOperand op v.type := by
  simp only [List.mem_cons, List.not_mem_nil, or_false] at hop
  rcases hop with rfl | rfl
  · cases v <;> cases h
    all_goals rfl
  · cases v <;> cases h
    all_goals rfl

theorem applyInfix_eq_error {op : Operator} (hop : op ∈ [plus, minus, asterisk, slash, lt, gt, eq, neq, lteq, gteq])
    {v w : Value} {e : EvalError} (h : op.applyInfix v w = .error e) :
    (∃ a, e = .divisionByZero a 0) ∨ e = .unknownInfixOp .boolean op .boolean ∨
      e = .infixOperands v.type op w.type := by
  unfold applyInfix at h
  split at h
  · next a b =>
    cases op with
    | slash =>
      by_cases hb : b = 0
      · subst hb
        cases h
        exact .inl ⟨a, rfl⟩
      · simp [applyInts, hb] at h
    | neg | increment | decrement => simp at hop
    | _ => cases h
  · cases op <;> cases h
    all_goals exact .inr (.inl rfl)
  · cases h
    exact .inr (.inr rfl)

end Operator

namespace Node

theorem Formed.not_isUnknown {place : Place} {n : Node} (h : n.Formed place) {e : EvalError} (he : n.Blames e) :
    ¬ e.isUnknown ∧ ∀ message, e ≠ .given message := by
  cases he with
  | prefixOp happly =>
    cases h with
    | prefixOp hop _ =>
      obtain rfl := Operator.applyPrefix_eq_error hop happly
      exact ⟨by simp [EvalError.isUnknown], by simp⟩
  | infixOp happly =>
    cases h with
    | infixOp hop _ _ =>
      rcases Operator.applyInfix_eq_error hop happly with ⟨a, rfl⟩ | rfl | rfl
      all_goals exact ⟨by simp [EvalError.isUnknown], by simp⟩
  | unknownPostfixOp hstep =>
    cases h with
    | postfixOp hop _ =>
      have hsteps : ∀ op ∈ [Operator.increment, .decrement], op.postfixStep? ≠ none := by decide
      exact absurd hstep (hsteps _ hop)
  | refusal hrefusal => exact EvalError.not_isUnknown_of_isRefusal hrefusal
  | token => cases h
  | _ => exact ⟨by simp [EvalError.isUnknown], by simp⟩

end Node

namespace Law
open Eval

/-- All nodes of an evaluation are well-formed, those that functions carry included, and its values are data. -/
def formed : Law := onlyData.and (every Value.Formed fun n => ∃ place, n.Formed place)

theorem makes_formed : Makes (fun n => ∃ place, n.Formed place) Value.Formed where
  child := fun ⟨_, h⟩ hc => h.child hc
  null := trivial
  bool _ := trivial
  builtin _ := trivial
  literal _ := trivial
  wrap _ := trivial
  str _ := trivial
  arr _ := trivial
  fn _ hn := by
    obtain ⟨place, h⟩ := hn
    cases h with
    | fn hparams hb => exact ⟨hparams, hb⟩
  body hv := ⟨_, hv.2⟩
  returned hv := hv

theorem formed_closed : formed.Closed := onlyData_closed.and (every_closed makes_formed fun _ => trivial)

theorem formed_start : formed.Ready State.globalScope .initial :=
  Ready.and ⟨State.Clean.initial, trivial⟩ ⟨State.Every.initial _, trivial⟩

theorem formed_admits {n : Node} (hn : Program.Parsed n) : formed.Admits n := by
  obtain ⟨source, hsource⟩ := hn
  exact ⟨trivial, .program, Grammar.formed_of_parse hsource⟩

end Law

namespace Eval
open Run Law
variable {settings : Settings} {w : Visit} {s : State} {e : EvalError}

theorem sidesteps_of_failed (h : formed.Ready w.scope w.state) (hn : formed.Admits w.node)
    (hfailed : w.outcome settings = (.error (.failed e), s)) : EvalError.Sidesteps e.message := by
  obtain ⟨u, hu, hblames⟩ := Visit.exists_blames h.holds.1 hfailed
  obtain ⟨place, hplace⟩ := (ready_of_enters formed_closed h hn hu).2.2
  obtain ⟨hunknown, hgiven⟩ := hplace.not_isUnknown hblames
  exact EvalError.message_sidesteps hunknown hgiven

theorem sidesteps_of_run (h : formed.Ready w.scope w.state) (hn : formed.Admits w.node)
    (hrun : run settings w.scope w.node w.state = (.value (.error e), s)) : EvalError.Sidesteps e.message := by
  have hkeeps := keeps_eval formed_closed settings settings.frames h hn
  rcases heval : eval settings settings.frames w.scope w.node w.state with ⟨why | v, s'⟩
  · simp only [run, heval] at hrun
    cases why with
    | returned v =>
      cases hrun
      exact absurd (hkeeps.of_returned heval).2.1 (by simp [onlyData, Value.isData])
    | failed err =>
      cases hrun
      exact sidesteps_of_failed (w := ⟨settings.frames, w.scope, w.node, w.state⟩) h hn heval
    | interrupted => cases hrun
    | _ =>
      cases hrun
      exact EvalError.message_sidesteps (by simp [EvalError.isUnknown]) (by simp)
  · simp only [run, heval] at hrun
    cases hrun
    exact absurd (hkeeps.of_ok heval).2.1 (by simp [onlyData, Value.isData])

/-- The tree of a program text is well-formed.  Whatever programs run one after the other, in every state that they get
to all functions have well-formed bodies, so have those that an evaluation meets on its way, and no evaluation ends with
an error about a node or an operator that has no rule. -/
theorem parsed_programs_formed (settings : Settings) :
    (∀ source n, Program.parse source = .ok n → n.Formed .program) ∧
      (∀ s, Ran settings Program.Parsed s → s.Every Value.Formed) ∧
      ∀ w : Visit, w.Occurs settings Program.Parsed →
        (∃ place, w.node.Formed place) ∧ w.state.Every Value.Formed ∧ (w.outcome settings).2.Every Value.Formed ∧
        (∀ v s, w.outcome settings = (.ok v, s) ∨ w.outcome settings = (.error (.returned v), s) → v.Formed) ∧
        (∀ called args s, w.Applies settings called args s → ∀ v ∈ called :: args, v.Formed) ∧
        ∀ e s, w.outcome settings = (.error (.failed e), s) ∨
            run settings w.scope w.node w.state = (.value (.error e), s) →
          ∀ start ∈ EvalError.unknownStarts, ¬ start.toList <+: e.message.toList := by
  have hstart := formed_start
  refine ⟨fun source n h => Grammar.formed_of_parse h, fun s hs => ?_, fun w hw => ?_⟩
  · exact (ready_of_ran formed_closed hstart (fun _ => formed_admits) hs).holds.2
  obtain ⟨h, hn⟩ := ready_of_occurs formed_closed hstart (fun _ => formed_admits) hw
  have hkeeps := keeps_outcome settings formed_closed h hn
  refine ⟨hn.2, h.holds.2, hkeeps.next.1.2, fun v s hv => ?_, fun called args s happlies => ?_, fun e s he => ?_⟩
  · rcases hv with hv | hv
    · exact (hkeeps.of_ok hv).2.2
    · exact (hkeeps.of_returned hv).2.2
  · obtain ⟨-, hcalled, hargs⟩ := ready_of_applies formed_closed h hn happlies
    exact List.forall_mem_cons.mpr ⟨hcalled.2, fun v hv => (hargs v hv).2⟩
  · rcases he with hfailed | hrun
    · exact fun start => (sidesteps_of_failed h hn hfailed).not_begins
    · exact fun start => (sidesteps_of_run h hn hrun).not_begins

def negateTruth : Visit :=
  ⟨9, 0, .program [.letStmt "f" (.fn ["x"] (.block [.exprStmt (.prefixOp .minus (.ident "x"))])),
    .exprStmt (.call (.ident "f") [.bool true])], .initial⟩

set_option maxRecDepth 8000 in
theorem negateTruth_formed :
    negateTruth.Occurs ⟨.null, .flat, 9, 9⟩ Program.Parsed ∧ negateTruth.node.Formed .program ∧
      ∃ s, negateTruth.outcome ⟨.null, .flat, 9, 9⟩ = (.error (.failed (.prefixOperand .minus .boolean)), s) ∧
        s.lookup 0 "f" = .fn ["x"] (.block [.exprStmt (.prefixOp .minus (.ident "x"))]) 0 ∧ s.Every Value.Formed ∧
        ∀ start ∈ EvalError.unknownStarts,
          ¬ start.toList <+: (EvalError.prefixOperand .minus .boolean).message.toList := by
  have hparsed : Program.parse "let f = fn(x) \x7b -x \x7d f(true)" = .ok negateTruth.node := by cbv
  have hw : negateTruth.Occurs ⟨.null, .flat, 9, 9⟩ Program.Parsed := ⟨.initial, _, .start, ⟨_, hparsed⟩, .refl⟩
  obtain ⟨hformed, -, h⟩ := parsed_programs_formed ⟨.null, .flat, 9, 9⟩
  obtain ⟨-, -, hstate, -, -, herror⟩ := h negateTruth hw
  have hout : (negateTruth.outcome ⟨.null, .flat, 9, 9⟩).1 = .error (.failed (.prefixOperand .minus .boolean)) := by cbv
  have hlookup : (negateTruth.outcome ⟨.null, .flat, 9, 9⟩).2.lookup 0 "f" =
      .fn ["x"] (.block [.exprStmt (.prefixOp .minus (.ident "x"))]) 0 := by cbv
  have heq : negateTruth.outcome ⟨.null, .flat, 9, 9⟩ = (.error (.failed (.prefixOperand .minus .boolean)), _) :=
    Prod.ext hout rfl
  exact ⟨hw, hformed _ _ hparsed, _, heq, hlookup, hstate, herror _ _ (.inl heq)⟩

end Eval
end Scriptlet
