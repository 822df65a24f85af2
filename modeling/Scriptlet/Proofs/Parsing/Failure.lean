import Scriptlet.Proofs.Parsing.Success

/-! When the parsers fail: which of their parts does, after what of theirs has been read, and at which place. -/
namespace Scriptlet
namespace Parser
open Attempt
variable {α : Type} {c : Cursor} {f : Refusal} {inner : Part → Attempt Node}

@[simp] theorem pure_eq_error {a : α} : (pure a : Attempt α) c = .error f ↔ False := by
  simp [pure]

@[simp] theorem fail_eq_error {cause : ParseError} : (fail cause : Attempt α) c = .error f ↔ ⟨some cause, c⟩ = f := by
  simp [fail]

@[simp] theorem exhaust_eq_error : (exhaust : Attempt α) c = .error f ↔ ⟨none, c⟩ = f := by
  simp [exhaust]

@[simp] theorem current_eq_error : (current : Attempt Token) c = .error f ↔ False := by
  simp [current]

@[simp] theorem peek_eq_error : (peek : Attempt Token) c = .error f ↔ False := by
  simp [peek]

@[simp] theorem advance_eq_error : (advance : Attempt Unit) c = .error f ↔ False := by
  simp [advance]

@[simp] theorem expect_eq_error {kind : Kind} :
    (expect kind : Attempt Unit) c = .error f ↔ c.current.kind ≠ kind ∧ ⟨some (.unexpected c.current kind), c⟩ = f := by
  simp only [expect, bind_eq_error, current_eq_ok, current_eq_error, existsAndEq, true_and, false_or]
  split <;> simp [*]

@[simp] theorem take_eq_error {kind : Kind} :
    (take kind : Attempt Unit) c = .error f ↔ c.peek.kind ≠ kind ∧ ⟨some (.unexpected c.peek kind), c.advance⟩ = f := by
  simp [take, bind_eq_error, Input.advance]

@[simp] theorem withAhead_eq_error {p : Nat → Attempt α} : withAhead p c = .error f ↔ p c.ahead.length c = .error f :=
  Iff.rfl

theorem ite_eq_error {P : Prop} [Decidable P] {p q : Attempt α} :
    (if P then p else q) c = .error f ↔ (P ∧ p c = .error f) ∨ (¬P ∧ q c = .error f) := by
  split <;> simp [*]

theorem name_eq_error :
    (name : Attempt String) c = .error f ↔
      c.current.kind ≠ .identifier ∧ ⟨some (.unexpected c.current .identifier), c⟩ = f := by
  simp [name, bind_eq_error]

def FailsToClose (inner : Part → Attempt Node) (closing : Kind) (c : Cursor) (f : Refusal) : Prop :=
  inner (.expression .lowest) c = .error f ∨ ∃ e c₁, inner (.expression .lowest) c = .ok (e, c₁) ∧
    c₁.peek.kind ≠ closing ∧ ⟨some (.unexpected c₁.peek closing), c₁.advance⟩ = f

theorem condition_eq_error : condition inner c = .error f ↔
    (c.peek.kind ≠ .lparen ∧ ⟨some (.unexpected c.peek .lparen), c.advance⟩ = f) ∨
    (c.peek.kind = .lparen ∧ FailsToClose inner .rparen c.advance.advance f) := by
  simp [condition, bind_eq_error, FailsToClose]

theorem grouped_eq_error : grouped inner c = .error f ↔ FailsToClose inner .rparen c.advance f := by
  simp [grouped, bind_eq_error, FailsToClose]

theorem prefixed_eq_error {op : Operator} :
    prefixed inner op c = .error f ↔ inner (.expression .leading) c.advance = .error f := by
  simp [prefixed, bind_eq_error]

theorem moreItems_succ_eq_error {item : Attempt α} {bound : Nat} : moreItems item (bound + 1) c = .error f ↔
    c.peek.kind = .comma ∧ (item c.advance.advance = .error f ∨
      ∃ a c₁, item c.advance.advance = .ok (a, c₁) ∧ moreItems item bound c₁ = .error f) := by
  simp [moreItems, bind_eq_error, ite_eq_error]

theorem items_eq_error {closing : Kind} {item : Attempt α} : items closing item c = .error f ↔
    c.peek.kind ≠ closing ∧ (item c.advance = .error f ∨
      ∃ a c₁, item c.advance = .ok (a, c₁) ∧ (moreItems item c₁.ahead.length c₁ = .error f ∨
        ∃ others c₂, moreItems item c₁.ahead.length c₁ = .ok (others, c₂) ∧
          c₂.peek.kind ≠ closing ∧ ⟨some (.unexpected c₂.peek closing), c₂.advance⟩ = f)) := by
  by_cases h : c.peek.kind = closing <;> simp [items, bind_eq_error, ite_eq_error, h]

theorem conditional_eq_error : conditional inner c = .error f ↔
    condition inner c = .error f ∨
      ∃ test c₁, condition inner c = .ok (test, c₁) ∧ (inner .block c₁.advance = .error f ∨
        ∃ yes c₂, inner .block c₁.advance = .ok (yes, c₂) ∧
          c₂.peek.kind = .elseWord ∧ inner .block c₂.advance.advance = .error f) := by
  simp [conditional, bind_eq_error, ite_eq_error]

theorem function_eq_error : function inner c = .error f ↔
    (c.peek.kind ≠ .lparen ∧ ⟨some (.unexpected c.peek .lparen), c.advance⟩ = f) ∨
    (c.peek.kind = .lparen ∧ ((items .rparen name : Attempt _) c.advance = .error f ∨
      ∃ params c₁, (items .rparen name : Attempt _) c.advance = .ok (params, c₁) ∧ inner .block c₁.advance = .error f)) := by
  simp [function, bind_eq_error]

theorem extend_binary_eq_error {op : Operator} {strength : Strength} {left : Node} :
    extend inner left (.binary op strength) c = .error f ↔ inner (.expression strength) c.advance = .error f := by
  simp [extend, bind_eq_error]

theorem extend_call_eq_error {left : Node} : extend inner left .call c = .error f ↔
    (left.isCallable = false ∧ ⟨some (.notCallable left), c⟩ = f) ∨
    (left.isCallable ∧ items .rparen (inner (.expression .lowest)) c = .error f) := by
  simp [extend, bind_eq_error, ite_eq_error, or_comm]

theorem extend_index_eq_error {left : Node} : extend inner left .index c = .error f ↔
    (left.isIndexable = false ∧ ⟨some (.notIndexable left), c⟩ = f) ∨
    (left.isIndexable ∧ FailsToClose inner .rsquare c.advance f) := by
  simp [extend, bind_eq_error, ite_eq_error, or_comm, FailsToClose]

theorem suffixes_succ_eq_error {floor : Strength} {bound : Nat} {left : Node} :
    suffixes inner floor (bound + 1) left c = .error f ↔
      ∃ suffix, Suffix.ofKind? c.peek.kind = some suffix ∧ floor < suffix.strength ∧
        (extend inner left suffix c.advance = .error f ∨
          ∃ longer c₁, extend inner left suffix c.advance = .ok (longer, c₁) ∧
            suffixes inner floor bound longer c₁ = .error f) := by
  cases h : Suffix.ofKind? c.peek.kind with
  | none => simp [suffixes, bind_eq_error, h]
  | some suffix => simp [suffixes, bind_eq_error, ite_eq_error, h]

theorem expression_eq_error {floor : Strength} : expression inner floor c = .error f ↔
    primary inner c = .error f ∨ ∃ first c₁, primary inner c = .ok (first, c₁) ∧
      suffixes inner floor c₁.ahead.length first c₁ = .error f := by
  simp [expression, bind_eq_error]

theorem letStatement_eq_error : letStatement inner c = .error f ↔
    (c.peek.kind ≠ .identifier ∧ ⟨some (.unexpected c.peek .identifier), c.advance⟩ = f) ∨
    (c.peek.kind = .identifier ∧
      ((c.advance.peek.kind ≠ .assign ∧ ⟨some (.unexpected c.advance.peek .assign), c.advance.advance⟩ = f) ∨
      (c.advance.peek.kind = .assign ∧ inner (.expression .lowest) c.advance.advance.advance = .error f))) := by
  simp [letStatement, bind_eq_error, name_eq_error, name_eq_ok, Input.advance]

theorem returnStatement_eq_error :
    returnStatement inner c = .error f ↔ inner (.expression .lowest) c.advance = .error f := by
  simp [returnStatement, bind_eq_error]

theorem whileStatement_eq_error : whileStatement inner c = .error f ↔
    condition inner c = .error f ∨
      ∃ test c₁, condition inner c = .ok (test, c₁) ∧ inner .block c₁.advance = .error f := by
  simp [whileStatement, bind_eq_error]

theorem statement_eq_error : statement inner c = .error f ↔
    (c.current.kind = .letWord ∧ letStatement inner c = .error f) ∨
    (c.current.kind = .returnWord ∧ returnStatement inner c = .error f) ∨
    (c.current.kind = .whileWord ∧ whileStatement inner c = .error f) ∨
    (c.current.kind ∉ [.letWord, .returnWord, .whileWord] ∧ expression inner .lowest c = .error f) := by
  simp only [statement, bind_eq_error, current_eq_ok, current_eq_error, existsAndEq, true_and, false_or]
  cases c.current.kind <;> simp [bind_eq_error]

theorem block_eq_error : block inner c = .error f ↔
    (c.current.kind ≠ .lbrace ∧ ⟨some (.unexpected c.current .lbrace), c⟩ = f) ∨
    (c.current.kind = .lbrace ∧ (statements inner (c.advance.ahead.length + 1) c.advance = .error f ∨
      ∃ ss c₁, statements inner (c.advance.ahead.length + 1) c.advance = .ok (ss, c₁) ∧
        c₁.current.kind ≠ .rbrace ∧ ⟨some (.unexpected c₁.current .rbrace), c₁⟩ = f)) := by
  simp [block, bind_eq_error]

theorem statements_succ_eq_error {bound : Nat} : statements inner (bound + 1) c = .error f ↔
    ¬(c.current.kind = .rbrace ∨ c.current.kind = .eof) ∧ (statement inner c = .error f ∨
      ∃ s c₁, statement inner c = .ok (s, c₁) ∧ statements inner bound c₁.advance = .error f) := by
  simp only [statements, bind_eq_error, ite_eq_error, current_eq_ok, current_eq_error, pure_eq_error, advance_eq_ok,
    advance_eq_error, existsAndEq, true_and, false_or, and_false, or_false, exists_const, exists_false]

end Parser

namespace Attempt
variable {inner : Parser.Part → Attempt Node} {input : Input} {f : Refusal}

theorem untilEnd_succ_eq_error {bound : Nat} : untilEnd inner (bound + 1) input = .error f ↔
    input.peek ≠ .eof ∧ (Parser.statement inner input.advance = .error f ∨
      ∃ s c, Parser.statement inner input.advance = .ok (s, c) ∧ untilEnd inner bound c.toInput = .error f) := by
  rw [untilEnd_succ]
  by_cases hend : input.peek = .eof
  · simp [hend]
  · cases hs : Parser.statement inner input.advance with
    | error f' => simp [hend, bind, Except.bind]
    | ok r =>
      obtain ⟨s, c⟩ := r
      cases hothers : untilEnd inner bound c.toInput <;> simp [hend, hothers, bind, Except.bind, pure, Except.pure]

end Attempt
end Scriptlet
