import Scriptlet.Proofs.Parsing.Running

/-! The procedures of the parser, with their calls marked.  So marked, a procedure keeps a log of the procedures that it
calls; without the log it is the procedure itself. -/
namespace Scriptlet
namespace Parser
open Attempt

inductive Item
  | name
  | expression (site : Site)

/-- The procedures that parse something.  A loop is one too, which goes on after a round by calling itself. -/
inductive Procedure
  | name
  | items (closing : Kind) (item : Item)
  | moreItems (item : Item)
  | condition
  | prefixed (op : Operator)
  | grouped
  | conditional
  | function
  | array
  | primary
  | extend (left : Node) (suffix : Suffix)
  | suffixes (floor : Strength) (left : Node)
  | expression (floor : Strength)
  | letStatement
  | returnStatement
  | whileStatement
  | statement
  | statements
  | block

abbrev Item.Result : Item → Type
  | .name => String
  | .expression _ => Node

abbrev Procedure.Result : Procedure → Type
  | .name => String
  | .items _ item | .moreItems item => List item.Result
  | .statements => List Node
  | _ => Node

section
variable {m : Type → Type} [Steps m] (inner : Part → m Node)

def Item.parser : (item : Item) → m item.Result
  | .name => Parser.name
  | .expression site => inside inner site (.expression .lowest)

def Procedure.parser : (p : Procedure) → m p.Result
  | .name => Parser.name
  | .items closing item => Parser.items closing (item.parser inner)
  | .moreItems item => withAhead (Parser.moreItems (item.parser inner))
  | .condition => Parser.condition inner
  | .prefixed op => Parser.prefixed inner op
  | .grouped => Parser.grouped inner
  | .conditional => Parser.conditional inner
  | .function => Parser.function inner
  | .array => Parser.array inner
  | .primary => Parser.primary inner
  | .extend left suffix => Parser.extend inner left suffix
  | .suffixes floor left => withAhead fun bound => Parser.suffixes inner floor bound left
  | .expression floor => Parser.expression inner floor
  | .letStatement => Parser.letStatement inner
  | .returnStatement => Parser.returnStatement inner
  | .whileStatement => Parser.whileStatement inner
  | .statement => Parser.statement inner
  | .statements => withAhead fun ahead => Parser.statements inner (ahead + 1)
  | .block => Parser.block inner

end

theorem runs_procedure {limited : Prop} {inner : Part → Parser Node} {inner' : Part → Attempt Node}
    (hinner : ∀ part, Runs limited (inner part) (inner' part)) (p : Procedure) :
    Runs limited (p.parser inner) (p.parser inner') := by
  have hitem (item : Item) : Runs limited (item.parser inner) (item.parser inner') := by
    cases item with
    | name => exact runs_name
    | expression site => exact runs_inside hinner site _
  cases p with
  | name => exact runs_name
  | items closing item => exact runs_items (hitem item) closing
  | moreItems item => exact runs_withAhead (runs_moreItems (hitem item))
  | condition => exact runs_condition hinner
  | prefixed op => exact runs_prefixed hinner op
  | grouped => exact runs_grouped hinner
  | conditional => exact runs_conditional hinner
  | function => exact runs_function hinner
  | array => exact runs_array hinner
  | primary => exact runs_primary hinner
  | extend left suffix => exact runs_extend hinner left suffix
  | suffixes floor left => exact runs_withAhead fun k => runs_suffixes hinner floor k left
  | expression floor => exact runs_expression hinner floor
  | letStatement => exact runs_letStatement hinner
  | returnStatement => exact runs_returnStatement hinner
  | whileStatement => exact runs_whileStatement hinner
  | statement => exact runs_statement hinner
  | statements => exact runs_withAhead fun k => runs_statements hinner (k + 1)
  | block => exact runs_block hinner

structure Activation where
  procedure : Procedure
  place : Cursor

/-- An attempt that keeps a log of the procedures that are called. -/
structure Logged (α : Type) where
  log : Cursor → List Activation
  outcome : Attempt α

namespace Logged
variable {α β : Type}

def step (p : Attempt α) : Logged α := ⟨fun _ => [], p⟩

def call (p : Procedure) : Logged p.Result := ⟨fun c => [⟨p, c⟩], p.parser anyPart⟩

/-- What is left to do after an outcome is logged only if there is anything left to do. -/
def logAfter (f : α → Logged β) : Except Refusal (α × Cursor) → List Activation
  | .ok (a, d) => (f a).log d
  | .error _ => []

instance : Steps Logged where
  pure a := step (pure a)
  bind p f := ⟨fun c => p.log c ++ logAfter f (p.outcome c), p.outcome >>= fun a => (f a).outcome⟩
  current := step current
  peek := step peek
  ahead := step ahead
  advance := step advance
  fail e := step (fail e)
  within _ p := p
  exhaust := step exhaust

end Logged

open Logged

def Item.procedure : Item → Procedure
  | .name => .name
  | .expression _ => .expression .lowest

def Item.call : (item : Item) → Logged item.Result
  | .name => Logged.call .name
  | .expression _ => Logged.call (.expression .lowest)

def Procedure.body : (p : Procedure) → Logged p.Result
  | .name => do
    expect .identifier
    return (← current).lexeme
  | .items closing item => do
    if (← peek).kind = closing then
      take closing
      return []
    else
      advance
      let first ← item.call
      let others ← call (.moreItems item)
      take closing
      return first :: others
  | .moreItems item => do
    if (← peek).kind = .comma then
      advance
      advance
      return (← item.call) :: (← call (.moreItems item))
    else
      return []
  | .condition => do
    take .lparen
    advance
    let e ← call (.expression .lowest)
    take .rparen
    return e
  | .prefixed op => do
    advance
    return .prefixOp op (← call (.expression .leading))
  | .grouped => do
    advance
    let e ← call (.expression .lowest)
    take .rparen
    return e
  | .conditional => do
    let c ← call .condition
    advance
    let yes ← call .block
    if (← peek).kind = .elseWord then
      advance
      advance
      return .ifElse c yes (← call .block)
    else
      return .ifThen c yes
  | .function => do
    take .lparen
    let params ← call (.items .rparen .name)
    advance
    return .fn params (← call .block)
  | .array => do return .array (← call (.items .rsquare (.expression .element)))
  | .primary => do
    let t ← current
    match t.kind with
    | .int =>
      match integer? t.lexeme with
      | some n => return .int n
      | none => fail (.badInteger t)
    | .string => return .str t.lexeme
    | .trueWord => return .bool true
    | .falseWord => return .bool false
    | .identifier => return .ident t.lexeme
    | .minus => call (.prefixed .minus)
    | .neg => call (.prefixed .neg)
    | .lparen => call .grouped
    | .ifWord => call .conditional
    | .fnWord => call .function
    | .lsquare => call .array
    | _ => fail (.noExpression t)
  | .extend left (.binary op strength) => do
    advance
    return .infixOp op left (← call (.expression strength))
  | .extend left (.closing op) => return .postfixOp op left
  | .extend left .call => do
    if left.isCallable then
      return .call left (← call (.items .rparen (.expression .argument)))
    else
      fail (.notCallable left)
  | .extend left .index => do
    if left.isIndexable then
      advance
      let position ← call (.expression .lowest)
      take .rsquare
      return .index left position
    else
      fail (.notIndexable left)
  | .suffixes floor left => do
    match Suffix.ofKind? (← peek).kind with
    | none => return left
    | some suffix =>
      if floor < suffix.strength then
        advance
        let longer ← call (.extend left suffix)
        call (.suffixes floor longer)
      else
        return left
  | .expression floor => do
    let first ← call .primary
    call (.suffixes floor first)
  | .letStatement => do
    advance
    let x ← call .name
    take .assign
    advance
    return .letStmt x (← call (.expression .lowest))
  | .returnStatement => do
    advance
    return .returnStmt (← call (.expression .lowest))
  | .whileStatement => do
    let c ← call .condition
    advance
    return .whileStmt c (← call .block)
  | .statement => do
    match (← current).kind with
    | .letWord => call .letStatement
    | .returnWord => call .returnStatement
    | .whileWord => call .whileStatement
    | _ => return .exprStmt (← call (.expression .lowest))
  | .statements => do
    let t ← current
    if t.kind = .rbrace ∨ t.kind = .eof then
      return []
    else
      let first ← call .statement
      advance
      return first :: (← call .statements)
  | .block => do
    expect .lbrace
    advance
    let body ← call .statements
    expect .rbrace
    return .block body

namespace Logged
variable {α β : Type} {p : Logged α} {f : α → Logged β} {c : Cursor}

@[simp] theorem outcome_bind : (p >>= f).outcome = p.outcome >>= fun a => (f a).outcome := rfl

@[simp] theorem outcome_ite {P : Prop} [Decidable P] {p q : Logged α} :
    (if P then p else q).outcome = if P then p.outcome else q.outcome :=
  apply_ite outcome P p q

@[simp] theorem outcome_expect (kind : Kind) : (expect kind : Logged Unit).outcome = expect kind := by
  simp only [expect, outcome_bind, outcome_ite]
  rfl

@[simp] theorem outcome_take (kind : Kind) : (take kind : Logged Unit).outcome = take kind := by
  simp only [take, outcome_bind, outcome_expect]
  rfl

@[simp] theorem outcome_call_expression (floor : Strength) :
    (call (.expression floor)).outcome = anyPart (.expression floor) :=
  (anyPart_expression floor).symm

@[simp] theorem outcome_call_block : (call .block).outcome = anyPart .block := anyPart_block.symm

@[simp] theorem outcome_itemCall {item : Item} : item.call.outcome = item.parser anyPart := by
  cases item with
  | name => rfl
  | expression site => exact outcome_call_expression .lowest

end Logged

theorem steady_item (item : Item) (bound : Nat) :
    Steady bound 0 1 0 (item.parser anyPart : Attempt item.Result) (item.parser anyPart) := by
  cases item with
  | name => exact steady_name
  | expression => exact steady_anyPart _

theorem outcome_primary : (Procedure.body .primary).outcome = Parser.primary anyPart := by
  simp only [Procedure.body, outcome_bind]
  refine congrArg (bind (current : Attempt Token)) (funext fun t => ?_)
  cases t.kind
  case int => cases integer? t.lexeme <;> rfl
  all_goals rfl

theorem outcome_statement : (Procedure.body .statement).outcome = Parser.statement anyPart := by
  simp only [Procedure.body, outcome_bind]
  refine congrArg (bind (current : Attempt Token)) (funext fun t => ?_)
  cases t.kind
  case letWord | returnWord | whileWord => rfl
  all_goals rfl

theorem outcome_moreItems (item : Item) :
    (Procedure.body (.moreItems item)).outcome = withAhead (Parser.moreItems (item.parser anyPart)) := by
  rw [moreItems_eq_round (steady_item item)]
  simp only [Procedure.body, outcome_bind, outcome_ite, outcome_itemCall]
  rfl

theorem outcome_suffixes (floor : Strength) (left : Node) : (Procedure.body (.suffixes floor left)).outcome =
    withAhead fun bound => Parser.suffixes anyPart floor bound left := by
  funext c
  rw [suffixes_eq_round]
  show outcome (match Suffix.ofKind? c.peek.kind with | none => _ | some suffix => _) c = _
  unfold suffixRound
  dsimp only
  cases Suffix.ofKind? c.peek.kind with
  | none => rfl
  | some suffix =>
    simp only [outcome_ite]
    rfl

theorem outcome_statements : (Procedure.body .statements).outcome =
    withAhead fun ahead => Parser.statements anyPart (ahead + 1) := by
  rw [statements_eq_round]
  simp only [Procedure.body, outcome_bind, outcome_ite]
  rfl

/-- Without its log, a procedure with its calls marked is the procedure. -/
theorem Procedure.outcome_body (p : Procedure) : p.body.outcome = p.parser anyPart := by
  cases p with
  | primary => exact outcome_primary
  | statement => exact outcome_statement
  | moreItems item => exact outcome_moreItems item
  | suffixes floor left => exact outcome_suffixes floor left
  | statements => exact outcome_statements
  | extend left suffix =>
    cases suffix <;> simp only [body, outcome_bind, outcome_ite, outcome_take, outcome_call_expression] <;> rfl
  | _ =>
    simp only [body, outcome_bind, outcome_ite, outcome_expect, outcome_take, outcome_itemCall, outcome_call_expression,
      outcome_call_block]
    rfl

end Parser
end Scriptlet
