import Mathlib.Tactic.Simproc.ExistsAndEq
import Scriptlet.Proofs.Parsing.Attempt

/-! When the parsers succeed: for each of them, what it asks of its parts and of the tokens, and where it ends. -/
namespace Scriptlet
namespace Parser
open Attempt
variable {α : Type} {c c' : Cursor} {inner : Part → Attempt Node}

@[simp] theorem pure_eq_ok {a b : α} : (pure a : Attempt α) c = .ok (b, c') ↔ a = b ∧ c = c' := by
  simp [pure]

@[simp] theorem fail_eq_ok {cause : ParseError} {a : α} : (fail cause : Attempt α) c = .ok (a, c') ↔ False := by
  simp [fail]

@[simp] theorem exhaust_eq_ok {a : α} : (exhaust : Attempt α) c = .ok (a, c') ↔ False := by
  simp [exhaust]

@[simp] theorem current_eq_ok {t : Token} : (current : Attempt Token) c = .ok (t, c') ↔ c.current = t ∧ c = c' := by
  simp [current]

@[simp] theorem peek_eq_ok {t : Token} : (peek : Attempt Token) c = .ok (t, c') ↔ c.peek = t ∧ c = c' := by
  simp [peek]

@[simp] theorem advance_eq_ok {u : Unit} : (advance : Attempt Unit) c = .ok (u, c') ↔ c.advance = c' := by
  simp [advance]

@[simp] theorem expect_eq_ok {kind : Kind} {u : Unit} :
    (expect kind : Attempt Unit) c = .ok (u, c') ↔ c.current.kind = kind ∧ c = c' := by
  simp only [expect, bind_eq_ok, current_eq_ok, existsAndEq, true_and]
  split <;> simp [*]

@[simp] theorem take_eq_ok {kind : Kind} {u : Unit} :
    (take kind : Attempt Unit) c = .ok (u, c') ↔ c.peek.kind = kind ∧ c.advance = c' := by
  simp [take, bind_eq_ok, Input.advance]

@[simp] theorem withAhead_eq_ok {p : Nat → Attempt α} {a : α} :
    withAhead p c = .ok (a, c') ↔ p c.ahead.length c = .ok (a, c') := Iff.rfl

theorem ite_eq_ok {P : Prop} [Decidable P] {p q : Attempt α} {a : α} :
    (if P then p else q) c = .ok (a, c') ↔ (P ∧ p c = .ok (a, c')) ∨ (¬P ∧ q c = .ok (a, c')) := by
  split <;> simp [*]

theorem name_eq_ok {x : String} :
    (name : Attempt String) c = .ok (x, c') ↔ c.current.kind = .identifier ∧ c.current.lexeme = x ∧ c = c' := by
  simp [name, bind_eq_ok, and_assoc]

theorem condition_eq_ok {e : Node} : condition inner c = .ok (e, c') ↔
    c.peek.kind = .lparen ∧ ∃ c₁, inner (.expression .lowest) c.advance.advance = .ok (e, c₁) ∧
      c₁.peek.kind = .rparen ∧ c₁.advance = c' := by
  simp [condition, bind_eq_ok, and_assoc]

theorem grouped_eq_ok {e : Node} : grouped inner c = .ok (e, c') ↔
    ∃ c₁, inner (.expression .lowest) c.advance = .ok (e, c₁) ∧ c₁.peek.kind = .rparen ∧ c₁.advance = c' := by
  simp [grouped, bind_eq_ok]

theorem prefixed_eq_ok {op : Operator} {e : Node} : prefixed inner op c = .ok (e, c') ↔
    ∃ operand, inner (.expression .leading) c.advance = .ok (operand, c') ∧ .prefixOp op operand = e := by
  simp [prefixed, bind_eq_ok]

theorem moreItems_zero_eq_ok {item : Attempt α} {as : List α} :
    moreItems item 0 c = .ok (as, c') ↔ [] = as ∧ c = c' := by
  simp [moreItems]

theorem moreItems_succ_eq_ok {item : Attempt α} {bound : Nat} {as : List α} :
    moreItems item (bound + 1) c = .ok (as, c') ↔
      (c.peek.kind = .comma ∧ ∃ a c₁, item c.advance.advance = .ok (a, c₁) ∧
        ∃ others, moreItems item bound c₁ = .ok (others, c') ∧ a :: others = as) ∨
      (c.peek.kind ≠ .comma ∧ [] = as ∧ c = c') := by
  simp [moreItems, bind_eq_ok, ite_eq_ok]

theorem items_eq_ok {closing : Kind} {item : Attempt α} {as : List α} :
    items closing item c = .ok (as, c') ↔
      (c.peek.kind = closing ∧ [] = as ∧ c.advance = c') ∨
      (c.peek.kind ≠ closing ∧ ∃ a c₁, item c.advance = .ok (a, c₁) ∧
        ∃ others c₂, moreItems item c₁.ahead.length c₁ = .ok (others, c₂) ∧ c₂.peek.kind = closing ∧
          a :: others = as ∧ c₂.advance = c') := by
  simp [items, bind_eq_ok, ite_eq_ok]
  grind

theorem conditional_eq_ok {e : Node} : conditional inner c = .ok (e, c') ↔
    ∃ test c₁, condition inner c = .ok (test, c₁) ∧ ∃ yes c₂, inner .block c₁.advance = .ok (yes, c₂) ∧
      ((c₂.peek.kind = .elseWord ∧ ∃ no, inner .block c₂.advance.advance = .ok (no, c') ∧ .ifElse test yes no = e) ∨
        (c₂.peek.kind ≠ .elseWord ∧ .ifThen test yes = e ∧ c₂ = c')) := by
  simp [conditional, bind_eq_ok, ite_eq_ok]

theorem function_eq_ok {e : Node} : function inner c = .ok (e, c') ↔
    c.peek.kind = .lparen ∧ ∃ params c₁, (items .rparen name : Attempt _) c.advance = .ok (params, c₁) ∧
      ∃ body, inner .block c₁.advance = .ok (body, c') ∧ .fn params body = e := by
  simp [function, bind_eq_ok]

theorem array_eq_ok {e : Node} :
    (do return .array (← items .rsquare (inner (.expression .lowest))) : Attempt Node) c = .ok (e, c') ↔
      ∃ es, items .rsquare (inner (.expression .lowest)) c = .ok (es, c') ∧ .array es = e := by
  simp [bind_eq_ok]

theorem primary_eq : primary inner c =
    (match c.current.kind with
    | .int =>
      match integer? c.current.lexeme with
      | some n => return .int n
      | none => fail (.badInteger c.current)
    | .string => return .str c.current.lexeme
    | .trueWord => return .bool true
    | .falseWord => return .bool false
    | .identifier => return .ident c.current.lexeme
    | .minus => prefixed inner .minus
    | .neg => prefixed inner .neg
    | .lparen => grouped inner
    | .ifWord => conditional inner
    | .fnWord => function inner
    | .lsquare => do return .array (← items .rsquare (inner (.expression .lowest)))
    | _ => fail (.noExpression c.current) : Attempt Node) c := rfl

theorem extend_binary_eq_ok {op : Operator} {strength : Strength} {left e : Node} :
    extend inner left (.binary op strength) c = .ok (e, c') ↔
      ∃ right, inner (.expression strength) c.advance = .ok (right, c') ∧ .infixOp op left right = e := by
  simp [extend, bind_eq_ok]

theorem extend_closing_eq_ok {op : Operator} {left e : Node} :
    extend inner left (.closing op) c = .ok (e, c') ↔ .postfixOp op left = e ∧ c = c' := by
  simp [extend]

theorem extend_call_eq_ok {left e : Node} : extend inner left .call c = .ok (e, c') ↔
    left.isCallable ∧ ∃ args, items .rparen (inner (.expression .lowest)) c = .ok (args, c') ∧ .call left args = e := by
  simp [extend, bind_eq_ok, ite_eq_ok]

theorem extend_index_eq_ok {left e : Node} : extend inner left .index c = .ok (e, c') ↔
    left.isIndexable ∧ ∃ i c₁, inner (.expression .lowest) c.advance = .ok (i, c₁) ∧
      (c₁.peek.kind = .rsquare ∧ c₁.advance = c') ∧ .index left i = e := by
  simp [extend, bind_eq_ok, ite_eq_ok]

theorem not_lt_lowest (s : Strength) : ¬s < .lowest := by cases s <;> decide

theorem suffixes_zero_eq_ok {floor : Strength} {left e : Node} :
    suffixes inner floor 0 left c = .ok (e, c') ↔ left = e ∧ c = c' := by
  simp [suffixes]

theorem suffixes_succ_eq_ok {floor : Strength} {bound : Nat} {left e : Node} :
    suffixes inner floor (bound + 1) left c = .ok (e, c') ↔
      (¬floor < Strength.ofKind c.peek.kind ∧ left = e ∧ c = c') ∨
      ∃ suffix, Suffix.ofKind? c.peek.kind = some suffix ∧ floor < suffix.strength ∧
        ∃ longer c₁, extend inner left suffix c.advance = .ok (longer, c₁) ∧
          suffixes inner floor bound longer c₁ = .ok (e, c') := by
  cases h : Suffix.ofKind? c.peek.kind with
  | none => simp [suffixes, bind_eq_ok, h, Strength.ofKind, not_lt_lowest]
  | some suffix => simp [suffixes, bind_eq_ok, ite_eq_ok, h, Strength.ofKind, or_comm]

theorem expression_eq_ok {floor : Strength} {e : Node} : expression inner floor c = .ok (e, c') ↔
    ∃ first c₁, primary inner c = .ok (first, c₁) ∧
      suffixes inner floor c₁.ahead.length first c₁ = .ok (e, c') := by
  simp [expression, bind_eq_ok]

theorem letStatement_eq_ok {s : Node} : letStatement inner c = .ok (s, c') ↔
    c.peek.kind = .identifier ∧ c.advance.peek.kind = .assign ∧
      ∃ e, inner (.expression .lowest) c.advance.advance.advance = .ok (e, c') ∧ .letStmt c.peek.lexeme e = s := by
  simp [letStatement, bind_eq_ok, name_eq_ok, Input.advance]

theorem returnStatement_eq_ok {s : Node} : returnStatement inner c = .ok (s, c') ↔
    ∃ e, inner (.expression .lowest) c.advance = .ok (e, c') ∧ .returnStmt e = s := by
  simp [returnStatement, bind_eq_ok]

theorem whileStatement_eq_ok {s : Node} : whileStatement inner c = .ok (s, c') ↔
    ∃ test c₁, condition inner c = .ok (test, c₁) ∧ ∃ body, inner .block c₁.advance = .ok (body, c') ∧
      .whileStmt test body = s := by
  simp [whileStatement, bind_eq_ok]

theorem statement_eq_ok {s : Node} : statement inner c = .ok (s, c') ↔
    (c.current.kind = .letWord ∧ letStatement inner c = .ok (s, c')) ∨
    (c.current.kind = .returnWord ∧ returnStatement inner c = .ok (s, c')) ∨
    (c.current.kind = .whileWord ∧ whileStatement inner c = .ok (s, c')) ∨
    (c.current.kind ∉ [.letWord, .returnWord, .whileWord] ∧
      ∃ e, expression inner .lowest c = .ok (e, c') ∧ .exprStmt e = s) := by
  simp only [statement, bind_eq_ok, current_eq_ok, existsAndEq, true_and]
  cases c.current.kind <;> simp [bind_eq_ok]

theorem block_eq_ok {b : Node} : block inner c = .ok (b, c') ↔
    c.current.kind = .lbrace ∧ ∃ ss, statements inner (c.advance.ahead.length + 1) c.advance = .ok (ss, c') ∧
      c'.current.kind = .rbrace ∧ .block ss = b := by
  simp [block, bind_eq_ok]

theorem statements_succ_eq_ok {bound : Nat} {ss : List Node} :
    statements inner (bound + 1) c = .ok (ss, c') ↔
      ((c.current.kind = .rbrace ∨ c.current.kind = .eof) ∧ [] = ss ∧ c = c') ∨
      (¬(c.current.kind = .rbrace ∨ c.current.kind = .eof) ∧ ∃ s c₁, statement inner c = .ok (s, c₁) ∧
        ∃ others, statements inner bound c₁.advance = .ok (others, c') ∧ s :: others = ss) := by
  simp only [statements, bind_eq_ok, ite_eq_ok, current_eq_ok, pure_eq_ok, advance_eq_ok, existsAndEq,
    true_and, and_true, exists_const]

end Parser

namespace Attempt
variable {inner : Parser.Part → Attempt Node} {input rest : Input} {ss : List Node}

theorem untilEnd_succ {bound : Nat} : untilEnd inner (bound + 1) input =
    if input.peek = .eof then .ok ([], input)
    else do
      let (first, place) ← Parser.statement inner input.advance
      let (others, rest) ← untilEnd inner bound place.toInput
      return (first :: others, rest) := rfl

theorem untilEnd_succ_eq_ok {bound : Nat} : untilEnd inner (bound + 1) input = .ok (ss, rest) ↔
    (input.peek = .eof ∧ [] = ss ∧ input = rest) ∨
    (input.peek ≠ .eof ∧ ∃ s c, Parser.statement inner input.advance = .ok (s, c) ∧
      ∃ others, untilEnd inner bound c.toInput = .ok (others, rest) ∧ s :: others = ss) := by
  rw [untilEnd_succ]
  by_cases hend : input.peek = .eof
  · simp [hend]
  · cases hs : Parser.statement inner input.advance with
    | error f => simp [hend, bind, Except.bind]
    | ok r =>
      obtain ⟨s, c⟩ := r
      cases hothers : untilEnd inner bound c.toInput <;>
        simp [hend, hothers, bind, Except.bind, pure, Except.pure, Prod.ext_iff, and_comm]

end Attempt
end Scriptlet
