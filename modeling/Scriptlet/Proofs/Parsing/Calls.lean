import Scriptlet.Proofs.Parsing.Procedures

/-! The calls that parsing makes.  For each procedure, which other ones it calls and where; whatever it calls has less
left to do than it has itself. -/
namespace Scriptlet
namespace Parser

open Attempt

def Activation.Calls (v w : Activation) : Prop := w ∈ v.procedure.body.log v.place

namespace Logged
variable {α β : Type} {p q : Logged α} {f : α → Logged β} {c : Cursor} {v : Activation}

@[simp] theorem log_pure {a : α} : (pure a : Logged α).log c = [] := rfl

@[simp] theorem log_fail {e : ParseError} : (fail e : Logged α).log c = [] := rfl

@[simp] theorem log_current : (current : Logged Token).log c = [] := rfl

@[simp] theorem log_peek : (peek : Logged Token).log c = [] := rfl

@[simp] theorem log_advance : (advance : Logged Unit).log c = [] := rfl

@[simp] theorem outcome_current : (current : Logged Token).outcome = current := rfl

@[simp] theorem outcome_peek : (peek : Logged Token).outcome = peek := rfl

@[simp] theorem outcome_advance : (advance : Logged Unit).outcome = advance := rfl

@[simp] theorem mem_log_bind : v ∈ (p >>= f).log c ↔
    v ∈ p.log c ∨ ∃ a d, p.outcome c = .ok (a, d) ∧ v ∈ (f a).log d := by
  show v ∈ p.log c ++ logAfter f (p.outcome c) ↔ _
  rw [List.mem_append]
  cases p.outcome c <;> simp [logAfter, Prod.ext_iff]

@[simp] theorem mem_log_ite {P : Prop} [Decidable P] : v ∈ (if P then p else q).log c ↔
    (P ∧ v ∈ p.log c) ∨ (¬P ∧ v ∈ q.log c) := by
  split <;> simp [*]

@[simp] theorem mem_log_expect {kind : Kind} : v ∈ (expect kind : Logged Unit).log c ↔ False := by
  simp [expect]

@[simp] theorem mem_log_take {kind : Kind} : v ∈ (take kind : Logged Unit).log c ↔ False := by
  simp [take]

@[simp] theorem mem_log_call {p : Procedure} : v ∈ (call p).log c ↔ v = ⟨p, c⟩ := List.mem_singleton

@[simp] theorem mem_log_itemCall {item : Item} : v ∈ item.call.log c ↔ v = ⟨item.procedure, c⟩ := by
  cases item <;> exact List.mem_singleton

end Logged

namespace Activation
open Logged
variable {c : Cursor} {w : Activation}

theorem calls_name : ¬Calls ⟨.name, c⟩ w := by
  simp [Calls, Procedure.body]

theorem calls_items {closing : Kind} {item : Item} : Calls ⟨.items closing item, c⟩ w ↔
    c.peek.kind ≠ closing ∧ (w = ⟨item.procedure, c.advance⟩ ∨
      ∃ a d, (item.parser anyPart : Attempt _) c.advance = .ok (a, d) ∧ w = ⟨.moreItems item, d⟩) := by
  simp [Calls, Procedure.body]

theorem calls_moreItems {item : Item} : Calls ⟨.moreItems item, c⟩ w ↔
    c.peek.kind = .comma ∧ (w = ⟨item.procedure, c.advance.advance⟩ ∨
      ∃ a d, (item.parser anyPart : Attempt _) c.advance.advance = .ok (a, d) ∧ w = ⟨.moreItems item, d⟩) := by
  simp [Calls, Procedure.body]

theorem calls_condition : Calls ⟨.condition, c⟩ w ↔
    c.peek.kind = .lparen ∧ w = ⟨.expression .lowest, c.advance.advance⟩ := by
  simp [Calls, Procedure.body]

theorem calls_prefixed {op : Operator} : Calls ⟨.prefixed op, c⟩ w ↔ w = ⟨.expression .leading, c.advance⟩ := by
  simp [Calls, Procedure.body]

theorem calls_grouped : Calls ⟨.grouped, c⟩ w ↔ w = ⟨.expression .lowest, c.advance⟩ := by
  simp [Calls, Procedure.body]

theorem calls_conditional : Calls ⟨.conditional, c⟩ w ↔
    w = ⟨.condition, c⟩ ∨ ∃ test d, (Parser.condition anyPart : Attempt Node) c = .ok (test, d) ∧ (w = ⟨.block, d.advance⟩ ∨
      ∃ yes d', (anyPart .block : Attempt Node) d.advance = .ok (yes, d') ∧ d'.peek.kind = .elseWord ∧
        w = ⟨.block, d'.advance.advance⟩) := by
  simp [Calls, Procedure.body, call, Procedure.parser, anyPart_block]

theorem calls_function : Calls ⟨.function, c⟩ w ↔
    c.peek.kind = .lparen ∧ (w = ⟨.items .rparen .name, c.advance⟩ ∨
      ∃ params d, (Parser.items .rparen Parser.name : Attempt _) c.advance = .ok (params, d) ∧ w = ⟨.block, d.advance⟩) := by
  simp [Calls, Procedure.body, call, Procedure.parser, Item.parser]

theorem calls_array : Calls ⟨.array, c⟩ w ↔ w = ⟨.items .rsquare (.expression .element), c⟩ := by
  simp [Calls, Procedure.body]

theorem calls_primary : Calls ⟨.primary, c⟩ w ↔
    (c.current.kind = .minus ∧ w = ⟨.prefixed .minus, c⟩) ∨ (c.current.kind = .neg ∧ w = ⟨.prefixed .neg, c⟩) ∨
    (c.current.kind = .lparen ∧ w = ⟨.grouped, c⟩) ∨ (c.current.kind = .ifWord ∧ w = ⟨.conditional, c⟩) ∨
    (c.current.kind = .fnWord ∧ w = ⟨.function, c⟩) ∨ (c.current.kind = .lsquare ∧ w = ⟨.array, c⟩) := by
  cases hk : c.current.kind
  case int => cases hn : integer? c.current.lexeme <;> simp [Calls, Procedure.body, hk, hn]
  all_goals simp [Calls, Procedure.body, hk]

theorem calls_extend {left : Node} {suffix : Suffix} : Calls ⟨.extend left suffix, c⟩ w ↔
    (∃ op strength, suffix = .binary op strength ∧ w = ⟨.expression strength, c.advance⟩) ∨
    (suffix = .call ∧ left.isCallable ∧ w = ⟨.items .rparen (.expression .argument), c⟩) ∨
    (suffix = .index ∧ left.isIndexable ∧ w = ⟨.expression .lowest, c.advance⟩) := by
  cases suffix <;> simp [Calls, Procedure.body]

theorem calls_suffixes {floor : Strength} {left : Node} : Calls ⟨.suffixes floor left, c⟩ w ↔
    ∃ suffix, Suffix.ofKind? c.peek.kind = some suffix ∧ floor < suffix.strength ∧
      (w = ⟨.extend left suffix, c.advance⟩ ∨ ∃ longer d,
        (Parser.extend anyPart left suffix : Attempt Node) c.advance = .ok (longer, d) ∧
          w = ⟨.suffixes floor longer, d⟩) := by
  cases hsuffix : Suffix.ofKind? c.peek.kind <;> simp [Calls, Procedure.body, hsuffix, call, Procedure.parser]

theorem calls_expression {floor : Strength} : Calls ⟨.expression floor, c⟩ w ↔
    w = ⟨.primary, c⟩ ∨
      ∃ first d, (Parser.primary anyPart : Attempt Node) c = .ok (first, d) ∧ w = ⟨.suffixes floor first, d⟩ := by
  simp [Calls, Procedure.body, call, Procedure.parser]

theorem calls_letStatement : Calls ⟨.letStatement, c⟩ w ↔
    w = ⟨.name, c.advance⟩ ∨ c.peek.kind = .identifier ∧ c.advance.peek.kind = .assign ∧
      w = ⟨.expression .lowest, c.advance.advance.advance⟩ := by
  simp [Calls, Procedure.body, call, Procedure.parser, name_eq_ok, Input.advance]

theorem calls_returnStatement : Calls ⟨.returnStatement, c⟩ w ↔ w = ⟨.expression .lowest, c.advance⟩ := by
  simp [Calls, Procedure.body]

theorem calls_whileStatement : Calls ⟨.whileStatement, c⟩ w ↔
    w = ⟨.condition, c⟩ ∨
      ∃ test d, (Parser.condition anyPart : Attempt Node) c = .ok (test, d) ∧ w = ⟨.block, d.advance⟩ := by
  simp [Calls, Procedure.body, call, Procedure.parser]

theorem calls_statement : Calls ⟨.statement, c⟩ w ↔
    (c.current.kind = .letWord ∧ w = ⟨.letStatement, c⟩) ∨
    (c.current.kind = .returnWord ∧ w = ⟨.returnStatement, c⟩) ∨
    (c.current.kind = .whileWord ∧ w = ⟨.whileStatement, c⟩) ∨
    (c.current.kind ∉ [.letWord, .returnWord, .whileWord] ∧ w = ⟨.expression .lowest, c⟩) := by
  cases hk : c.current.kind <;> simp [Calls, Procedure.body, hk]

theorem calls_statements : Calls ⟨.statements, c⟩ w ↔
    ¬(c.current.kind = .rbrace ∨ c.current.kind = .eof) ∧ (w = ⟨.statement, c⟩ ∨
      ∃ s d, (Parser.statement anyPart : Attempt Node) c = .ok (s, d) ∧ w = ⟨.statements, d.advance⟩) := by
  simp [Calls, Procedure.body, call, Procedure.parser]

theorem calls_block : Calls ⟨.block, c⟩ w ↔ c.current.kind = .lbrace ∧ w = ⟨.statements, c.advance⟩ := by
  simp [Calls, Procedure.body]

/-- How much is left to do: four times the tokens left, and some more by how many calls there may be on one token.  What is
called at its first token has that one left, and what is called after its first token has only those ahead. -/
def weight : Activation → Nat
  | ⟨.name, c⟩ | ⟨.primary, c⟩ | ⟨.block, c⟩ => 4 * c.left
  | ⟨.expression _, c⟩ => 4 * c.left + 1
  | ⟨.statement, c⟩ => 4 * c.left + 2
  | ⟨.statements, c⟩ => 4 * c.left + 3
  | ⟨.moreItems _, c⟩ | ⟨.condition, c⟩ | ⟨.suffixes _ _, c⟩ | ⟨.function, c⟩ => 4 * c.ahead.length
  | ⟨.conditional, c⟩ | ⟨.letStatement, c⟩ | ⟨.whileStatement, c⟩ => 4 * c.ahead.length + 1
  | ⟨.prefixed _, c⟩ | ⟨.grouped, c⟩ | ⟨.items _ _, c⟩ | ⟨.returnStatement, c⟩ => 4 * c.ahead.length + 2
  | ⟨.array, c⟩ | ⟨.extend _ _, c⟩ => 4 * c.ahead.length + 3

theorem weight_item_le (item : Item) (c : Cursor) : weight ⟨item.procedure, c⟩ ≤ 4 * c.left + 1 := by
  cases item with
  | name => exact Nat.le_succ _
  | expression => exact Nat.le_refl _

theorem ahead_le_of_condition {test : Node} {d : Cursor} (h : (Parser.condition anyPart : Attempt Node) c = .ok (test, d)) :
    d.ahead.length ≤ c.ahead.length := by
  obtain ⟨-, d', hinner, -, rfl⟩ := condition_eq_ok.mp h
  have hlt := Steady.ahead_lt_of_advance (fun _ => steady_anyPart _) (Nat.zero_le _) hinner
  rw [Input.length_ahead_advance] at hlt ⊢
  omega

theorem ahead_lt_of_items {closing : Kind} (item : Item) {as : List item.Result} {d : Cursor}
    (hclosing : closing ≠ .eof) (hpeek : c.peek.kind ≠ .eof)
    (h : Parser.items closing (item.parser anyPart : Attempt _) c.advance = .ok (as, d)) : d.ahead.length < c.ahead.length :=
  Steady.ahead_lt_of_advance (fun bound => steady_items (steady_item item bound) (Nat.le_succ bound) hclosing)
    (Cursor.left_pos_iff.mpr hpeek) h

theorem length_ahead_pos {kind : Kind} (hpeek : c.peek.kind = kind) (hkind : kind ≠ .eof) : 0 < c.ahead.length :=
  Input.length_ahead_pos (hpeek ▸ hkind)

theorem left_of_kind {kind : Kind} (hk : c.current.kind = kind) (hkind : kind ≠ .eof) : c.left = c.ahead.length + 1 :=
  Cursor.left_eq (hk ▸ hkind)

theorem weight_lt_of_items {closing : Kind} {item : Item} (h : Calls ⟨.items closing item, c⟩ w) :
    w.weight < weight ⟨.items closing item, c⟩ := by
  have hleft := Cursor.left_advance_le c.toInput
  obtain ⟨-, rfl | ⟨a, d, hitem, rfl⟩⟩ := calls_items.mp h
  · have hle := weight_item_le item c.advance
    show _ < 4 * c.ahead.length + 2
    omega
  · have hlt := Steady.ahead_lt_of_advance (steady_item item) (Nat.zero_le _) hitem
    simp only [weight]
    omega

theorem weight_lt_of_moreItems {item : Item} (h : Calls ⟨.moreItems item, c⟩ w) :
    w.weight < weight ⟨.moreItems item, c⟩ := by
  have hleft' := Cursor.left_advance_le c.advance.toInput
  have hahead := Input.length_ahead_advance c.toInput
  obtain ⟨hcomma, rfl | ⟨a, d, hitem, rfl⟩⟩ := calls_moreItems.mp h
  · have hle := weight_item_le item c.advance.advance
    have hpos := length_ahead_pos hcomma (by decide)
    show _ < 4 * c.ahead.length
    omega
  · have hlt := Steady.ahead_lt_of_advance (steady_item item) (Nat.zero_le _) hitem
    simp only [weight]
    omega

theorem weight_lt_of_condition (h : Calls ⟨.condition, c⟩ w) : w.weight < weight ⟨.condition, c⟩ := by
  have hleft' := Cursor.left_advance_le c.advance.toInput
  have hahead := Input.length_ahead_advance c.toInput
  obtain ⟨hopen, rfl⟩ := calls_condition.mp h
  have hpos := length_ahead_pos hopen (by decide)
  simp only [weight]
  omega

theorem weight_lt_of_conditional (h : Calls ⟨.conditional, c⟩ w) : w.weight < weight ⟨.conditional, c⟩ := by
  have hleft := Cursor.left_advance_le c.toInput
  obtain rfl | ⟨test, d, htest, hrest⟩ := calls_conditional.mp h
  · exact Nat.lt_succ_self _
  · have hle := ahead_le_of_condition htest
    have hyes := Cursor.left_advance_le d.toInput
    obtain rfl | ⟨yes, d', hblock, -, rfl⟩ := hrest
    · simp only [weight]
      omega
    · have hlt := Steady.ahead_lt_of_advance (fun _ => steady_anyPart _) (Nat.zero_le _) hblock
      have hno := Cursor.left_advance_le d'.advance.toInput
      rw [Input.length_ahead_advance] at hno
      simp only [weight]
      omega

theorem weight_lt_of_function (h : Calls ⟨.function, c⟩ w) : w.weight < weight ⟨.function, c⟩ := by
  have hleft' := Cursor.left_advance_le c.advance.toInput
  have hahead := Input.length_ahead_advance c.toInput
  obtain ⟨hopen, hrest⟩ := calls_function.mp h
  have hpos := length_ahead_pos hopen (by decide)
  obtain rfl | ⟨params, d, hparams, rfl⟩ := hrest
  · simp only [weight]
    omega
  · have hlt := ahead_lt_of_items .name (by decide) (by simp [hopen]) hparams
    have hbody := Cursor.left_advance_le d.toInput
    simp only [weight]
    omega

theorem weight_lt_of_primary (h : Calls ⟨.primary, c⟩ w) : w.weight < weight ⟨.primary, c⟩ := by
  obtain ⟨hk, rfl⟩ | ⟨hk, rfl⟩ | ⟨hk, rfl⟩ | ⟨hk, rfl⟩ | ⟨hk, rfl⟩ | ⟨hk, rfl⟩ := calls_primary.mp h
  all_goals
    have heq := left_of_kind hk (by decide)
    simp only [weight]
    omega

theorem weight_lt_of_extend {left : Node} {suffix : Suffix} (h : Calls ⟨.extend left suffix, c⟩ w) :
    w.weight < weight ⟨.extend left suffix, c⟩ := by
  have hleft := Cursor.left_advance_le c.toInput
  obtain ⟨op, strength, -, rfl⟩ | ⟨-, -, rfl⟩ | ⟨-, -, rfl⟩ := calls_extend.mp h
  all_goals
    simp only [weight]
    omega

theorem weight_lt_of_suffixes {floor : Strength} {left : Node} (h : Calls ⟨.suffixes floor left, c⟩ w) :
    w.weight < weight ⟨.suffixes floor left, c⟩ := by
  have hahead := Input.length_ahead_advance c.toInput
  obtain ⟨suffix, hsuffix, -, rfl | ⟨longer, d, hlonger, rfl⟩⟩ := calls_suffixes.mp h
  · have hpos := Input.length_ahead_pos (Grammar.ne_eof_of_suffix hsuffix)
    simp only [weight]
    omega
  · have hlt := ahead_lt_of_extend hsuffix hlonger
    simp only [weight]
    omega

theorem weight_lt_of_expression {floor : Strength} (h : Calls ⟨.expression floor, c⟩ w) :
    w.weight < weight ⟨.expression floor, c⟩ := by
  obtain rfl | ⟨first, d, hfirst, rfl⟩ := calls_expression.mp h
  · exact Nat.lt_succ_self _
  · have hlt := Steady.ahead_lt (fun bound => steady_primary steady_anyPart (Nat.le_succ bound)) (Nat.zero_le _) hfirst
    simp only [weight]
    omega

theorem weight_lt_of_letStatement (h : Calls ⟨.letStatement, c⟩ w) : w.weight < weight ⟨.letStatement, c⟩ := by
  have hleft := Cursor.left_advance_le c.toInput
  have hahead := Input.length_ahead_advance c.toInput
  obtain rfl | ⟨hname, -, rfl⟩ := calls_letStatement.mp h
  · simp only [weight]
    omega
  · have hpos := length_ahead_pos hname (by decide)
    have hvalue := Cursor.left_advance_le c.advance.advance.toInput
    have htwo := Input.length_ahead_advance c.advance.toInput
    simp only [weight]
    omega

theorem weight_lt_of_whileStatement (h : Calls ⟨.whileStatement, c⟩ w) : w.weight < weight ⟨.whileStatement, c⟩ := by
  obtain rfl | ⟨test, d, htest, rfl⟩ := calls_whileStatement.mp h
  · exact Nat.lt_succ_self _
  · have hle := ahead_le_of_condition htest
    have hbody := Cursor.left_advance_le d.toInput
    simp only [weight]
    omega

theorem weight_lt_of_statement (h : Calls ⟨.statement, c⟩ w) : w.weight < weight ⟨.statement, c⟩ := by
  obtain ⟨hk, rfl⟩ | ⟨hk, rfl⟩ | ⟨hk, rfl⟩ | ⟨-, rfl⟩ := calls_statement.mp h
  case inr.inr.inr => exact Nat.lt_succ_self _
  all_goals
    have heq := left_of_kind hk (by decide)
    simp only [weight]
    omega

theorem weight_lt_of_statements (h : Calls ⟨.statements, c⟩ w) : w.weight < weight ⟨.statements, c⟩ := by
  obtain ⟨-, rfl | ⟨s, d, hs, rfl⟩⟩ := calls_statements.mp h
  · exact Nat.lt_succ_self _
  · have hlt := ahead_lt_of_statement hs
    have hrest := Cursor.left_advance_le d.toInput
    simp only [weight]
    omega

theorem weight_lt_of_block (h : Calls ⟨.block, c⟩ w) : w.weight < weight ⟨.block, c⟩ := by
  have hleft := Cursor.left_advance_le c.toInput
  obtain ⟨hopen, rfl⟩ := calls_block.mp h
  have heq := left_of_kind hopen (by decide)
  simp only [weight]
  omega

/-- What is called has less left to do: it is started further on, or on the same token as one of a lower rank. -/
theorem Calls.weight_lt {v w : Activation} (h : v.Calls w) : w.weight < v.weight := by
  obtain ⟨p, c⟩ := v
  have hleft := Cursor.left_advance_le c.toInput
  cases p with
  | name => exact (calls_name h).elim
  | items closing item => exact weight_lt_of_items h
  | moreItems item => exact weight_lt_of_moreItems h
  | condition => exact weight_lt_of_condition h
  | conditional => exact weight_lt_of_conditional h
  | function => exact weight_lt_of_function h
  | array =>
    obtain rfl := calls_array.mp h
    exact Nat.lt_succ_self _
  | primary => exact weight_lt_of_primary h
  | extend left suffix => exact weight_lt_of_extend h
  | suffixes floor left => exact weight_lt_of_suffixes h
  | expression floor => exact weight_lt_of_expression h
  | letStatement => exact weight_lt_of_letStatement h
  | whileStatement => exact weight_lt_of_whileStatement h
  | statement => exact weight_lt_of_statement h
  | statements => exact weight_lt_of_statements h
  | block => exact weight_lt_of_block h
  | prefixed op =>
    obtain rfl := calls_prefixed.mp h
    simp only [weight]
    omega
  | grouped =>
    obtain rfl := calls_grouped.mp h
    simp only [weight]
    omega
  | returnStatement =>
    obtain rfl := calls_returnStatement.mp h
    simp only [weight]
    omega

end Activation

end Parser
end Scriptlet
