import Scriptlet.Syntax.Cursor
import Scriptlet.Text.Digit
import Scriptlet.Token.Scan

/-! Parsing: statements by their first word, expressions by binding strength.  A construct reads its parts
through a procedure for one nesting level further in; `part` ties that knot over a bound on the nesting, for which the
number of tokens is enough because every part starts at a later token than the construct it belongs to.  Whatever can
look at tokens, take them and fail can run the procedures. -/
namespace Scriptlet.Parser

def maxLiteral : Nat := 2147483647

def maxDigits : Nat := 4300

def integer? (lexeme : String) : Option Int :=
  let digits := lexeme.toList
  if digits.length ≤ maxDigits then
    (Text.decimalValue? digits).bind fun n => if n ≤ maxLiteral then some (n : Int) else none
  else none

inductive Part
  /-- An expression that takes in the suffixes binding tighter than `floor`. -/
  | expression (floor : Strength)
  | block

section
variable {m : Type → Type} [Steps m]

/-- The items after the first: each follows a comma.  With at most `bound` tokens ahead none is missed. -/
def moreItems {α : Type} (item : m α) : (bound : Nat) → m (List α)
  | 0 => return []
  | bound + 1 => do
    if (← peek).kind = .comma then
      advance
      advance
      return (← item) :: (← moreItems item bound)
    else
      return []

/-- Items between the opening token, which is current, and `closing`, on which it ends. -/
def items {α : Type} (closing : Kind) (item : m α) : m (List α) := do
  if (← peek).kind = closing then
    take closing
    return []
  else
    advance
    let first ← item
    let others ← withAhead (moreItems item)
    take closing
    return first :: others

def name : m String := do
  expect .identifier
  return (← current).lexeme

variable (inner : Part → m Node)

def inside (site : Site) (p : Part) : m Node := within (.part site) (inner p)

def condition : m Node := do
  take .lparen
  advance
  let e ← inside inner .condition (.expression .lowest)
  take .rparen
  return e

def prefixed (op : Operator) : m Node := do
  advance
  return .prefixOp op (← inside inner .operand (.expression .leading))

def grouped : m Node := do
  advance
  let e ← inside inner .group (.expression .lowest)
  take .rparen
  return e

def conditional : m Node := do
  let c ← condition inner
  advance
  let yes ← inside inner .branch .block
  if (← peek).kind = .elseWord then
    advance
    advance
    return .ifElse c yes (← inside inner .branch .block)
  else
    return .ifThen c yes

def function : m Node := do
  take .lparen
  let params ← items .rparen name
  advance
  return .fn params (← inside inner .body .block)

def array : m Node := do return .array (← items .rsquare (inside inner .element (.expression .lowest)))

def primary : m Node := do
  let t ← current
  match t.kind with
  | .int =>
    match integer? t.lexeme with
    | some n => return .int n
    | none => fail (.badInteger t)
  | .string => return .str t.lexeme
  | .trueWord => return .bool true
  | .falseWord => return .bool false
  | .identifier => return .ident t.lexeme
  | .minus => prefixed inner .minus
  | .neg => prefixed inner .neg
  | .lparen => grouped inner
  | .ifWord => conditional inner
  | .fnWord => function inner
  | .lsquare => array inner
  | _ => fail (.noExpression t)

def extend (left : Node) : Suffix → m Node
  | .binary op strength => do
    advance
    return .infixOp op left (← inside inner .right (.expression strength))
  | .closing op => return .postfixOp op left
  | .call => do
    if left.isCallable then
      return .call left (← items .rparen (inside inner .argument (.expression .lowest)))
    else
      within (.text left) (fail (.notCallable left))
  | .index => do
    if left.isIndexable then
      advance
      let position ← inside inner .position (.expression .lowest)
      take .rsquare
      return .index left position
    else
      within (.text left) (fail (.notIndexable left))

/-- Carries `left` on while the next token binds tighter than `floor`.  Each round takes a token, so with at
most `bound` tokens ahead no round is missed. -/
def suffixes (floor : Strength) : (bound : Nat) → Node → m Node
  | 0, left => return left
  | bound + 1, left => do
    match Suffix.ofKind? (← peek).kind with
    | none => return left
    | some suffix =>
      if floor < suffix.strength then
        advance
        let longer ← extend inner left suffix
        suffixes floor bound longer
      else
        return left

def expression (floor : Strength) : m Node := do
  let first ← primary inner
  withAhead fun bound => suffixes inner floor bound first

def letStatement : m Node := do
  advance
  let x ← name
  take .assign
  advance
  return .letStmt x (← inside inner .letValue (.expression .lowest))

def returnStatement : m Node := do
  advance
  return .returnStmt (← inside inner .returned (.expression .lowest))

def whileStatement : m Node := do
  let c ← within (.part .loopCondition) (condition inner)
  advance
  return .whileStmt c (← inside inner .loopBody .block)

/-- A statement that starts at the current token and ends on its last one. -/
def statement : m Node := do
  match (← current).kind with
  | .letWord => letStatement inner
  | .returnWord => returnStatement inner
  | .whileWord => whileStatement inner
  | _ => return .exprStmt (← within (.part .expression) (expression inner .lowest))

/-- Statements up to a closing brace or the end of the input, which is left current.  With fewer than
`bound` tokens ahead none is missed. -/
def statements : (bound : Nat) → m (List Node)
  | 0 => return []
  | bound + 1 => do
    let t ← current
    if t.kind = .rbrace ∨ t.kind = .eof then
      return []
    else
      let first ← statement inner
      advance
      return first :: (← statements bound)

def block : m Node := do
  expect .lbrace
  advance
  let body ← withAhead fun ahead => statements inner (ahead + 1)
  expect .rbrace
  return .block body

/-- A part of a construct, of which at most `bound` may lie inside one another. -/
def part : (bound : Nat) → Part → m Node
  | 0, _ => exhaust
  | bound + 1, .expression floor => do within (.token (← current)) (expression (part bound) floor)
  | bound + 1, .block => do within (.token (← current)) (block (part bound))

end

end Parser

inductive ParseStop
  | refused (p : Parser.Progress)
  | exhausted

namespace Program
open Scriptlet.Parser

/-- The statements read so far, and whether there was room to go on. -/
structure Reading where
  body : List Node
  progress : Progress
  exhausted : Bool

/-- Reads statements to the end of the input, or up to the first that gives none.  With at most `bound` tokens ahead none
is missed. -/
def Reading.statements (inner : Part → Parser Node) (room : Option Room) : (bound : Nat) → Reading → Reading
  | 0, r => r
  | bound + 1, r =>
    if r.progress.place.peek = .eof then r
    else
      match statement inner room { r.progress with place := r.progress.place.toInput.advance } with
      | (.read first, p) => statements inner room bound { r with body := r.body ++ [first], progress := p }
      | (.gaveUp, p) => { r with progress := p }
      | (.exhausted, p) => { r with progress := p, exhausted := true }

/-- Tokens that are left make one more error. -/
def Reading.finish (r : Reading) : Reading :=
  let place := r.progress.place
  if r.exhausted ∨ place.peek = .eof then r
  else { r with progress := r.progress.record (.unfinished place.current place.peek) }

/-- Reads a list of tokens.  Before the first of them is taken, the end stands for the current token. -/
def read (room : Option Room) (tokens : List Token) : Reading :=
  Reading.finish <| .statements (part (tokens.length + 1)) room tokens.length
    ⟨[], ⟨⟨Input.ofTokens tokens, .eof⟩, []⟩, false⟩

def Reading.result (r : Reading) : Except ParseStop Node :=
  if r.exhausted then .error .exhausted
  else if r.progress.errors.isEmpty then .ok (.program r.body)
  else .error (.refused r.progress)

def ofTokens (tokens : List Token) : Except ParseStop Node := (read none tokens).result

def parse (source : String) : Except ParseStop Node := ofTokens (Token.ofSource source.toList)

def parseWithin (room : Room) (source : String) : Except ParseStop Node :=
  (read (some room) (Token.ofSource source.toList)).result

end Program
end Scriptlet
