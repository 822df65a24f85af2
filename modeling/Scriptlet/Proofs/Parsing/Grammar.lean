import Scriptlet.Proofs.Parsing.Attempt

/-! The grammar of programs.  A `Phrase` is a construct together with the tree that it stands for, and `Yields` tells
which tokens write it.  Expressions come in levels; the weakest operators make the outermost level, and the operands of
a level are expressions of the next one.  Nothing separates statements, so the grammar has one rule about what may
follow: no token that could carry an expression on stands after a statement that ends with one. -/
namespace Scriptlet
namespace Grammar

inductive Level
  | comparison | summation | multiplication | signed | chain | primary
deriving DecidableEq

namespace Level

/-- The level whose expressions are the operands of a level.  Nothing is tighter than a primary expression. -/
def next : Level → Level
  | comparison => summation
  | summation => multiplication
  | multiplication => signed
  | signed => chain
  | chain | primary => primary

def operators : Level → List (Kind × Operator)
  | comparison => [(.lt, .lt), (.gt, .gt), (.eq, .eq), (.neq, .neq), (.lteq, .lteq), (.gteq, .gteq)]
  | summation => [(.plus, .plus), (.minus, .minus)]
  | multiplication => [(.asterisk, .asterisk), (.slash, .slash)]
  | signed | chain | primary => []

def rank : Level → Nat
  | comparison => 0
  | summation => 1
  | multiplication => 2
  | signed => 3
  | chain => 4
  | primary => 5

theorem rank_next (level : Level) (h : level.rank < primary.rank) : level.next.rank = level.rank + 1 := by
  cases level <;> simp_all [rank, next]

theorem rank_injective {a b : Level} (h : a.rank = b.rank) : a = b := by
  cases a <;> cases b <;> simp_all [rank]

theorem rank_le_primary (level : Level) : level.rank ≤ primary.rank := by cases level <;> decide

end Level

def unwritten : List Kind := [.eof, .illegal]

theorem Level.not_mem_unwritten {level : Level} {kind : Kind} {op : Operator} (h : (kind, op) ∈ level.operators) :
    kind ∉ unwritten := by
  revert h
  cases level <;> cases kind <;> simp [operators, unwritten]

def signs : List (Kind × Operator) := [(.minus, .minus), (.neg, .neg)]

def steps : List (Kind × Operator) := [(.increment, .increment), (.decrement, .decrement)]

/-- The tokens that carry on an expression before them. -/
def carriers : List Kind :=
  [.lt, .gt, .eq, .neq, .lteq, .gteq, .plus, .minus, .asterisk, .slash, .increment, .decrement, .lparen, .lsquare]

/-- A run of decimal digits that is short enough to be read, and its value if that fits into 31 bits. -/
def IsLiteral (lexeme : String) (n : Nat) : Prop :=
  lexeme.toList.length ≤ 4300 ∧ Text.decimalValue? lexeme.toList = some n ∧ n ≤ 2147483647

/-- Statements that end with an expression. -/
def endsOpen : Node → Bool
  | .letStmt _ _ | .returnStmt _ | .exprStmt _ => true
  | _ => false

/-- A construct and the tree that it stands for. -/
inductive Phrase
  | expression (level : Level) (e : Node)
  | name (x : String)
  /-- Constructs with commas between them. -/
  | items (ps : List Phrase)
  /-- An expression in parentheses. -/
  | condition (e : Node)
  | block (b : Node)
  | statement (s : Node)
  | statements (ss : List Node)
  | program (p : Node)

/-- The tokens that write a phrase. -/
inductive Yields : Phrase → List Token → Prop
  -- Expressions, from the weakest level down to the suffixes.
  | lift {level e w} (he : Yields (.expression level.next e) w) : Yields (.expression level e) w
  | binary {level op l r t w w'} (hop : (t.kind, op) ∈ level.operators) (hl : Yields (.expression level l) w)
      (hr : Yields (.expression level.next r) w') : Yields (.expression level (.infixOp op l r)) (w ++ t :: w')
  | sign {op e t w} (hop : (t.kind, op) ∈ signs) (he : Yields (.expression .signed e) w) :
      Yields (.expression .signed (.prefixOp op e)) (t :: w)
  | step {op e t w} (hop : (t.kind, op) ∈ steps) (he : Yields (.expression .chain e) w) :
      Yields (.expression .chain (.postfixOp op e)) (w ++ [t])
  | call {f args o c w w'} (hf : f.isCallable) (ho : o.kind = .lparen) (hc : c.kind = .rparen)
      (he : Yields (.expression .chain f) w) (hargs : Yields (.items (args.map (.expression .comparison))) w') :
      Yields (.expression .chain (.call f args)) (w ++ o :: (w' ++ [c]))
  | index {e i o c w w'} (he' : e.isIndexable) (ho : o.kind = .lsquare) (hc : c.kind = .rsquare)
      (he : Yields (.expression .chain e) w) (hi : Yields (.expression .comparison i) w') :
      Yields (.expression .chain (.index e i)) (w ++ o :: (w' ++ [c]))
  -- Primary expressions; inside brackets the levels start again.
  | int {n t} (ht : t.kind = .int) (hn : IsLiteral t.lexeme n) : Yields (.expression .primary (.int n)) [t]
  | str {t} (ht : t.kind = .string) : Yields (.expression .primary (.str t.lexeme)) [t]
  | ident {t} (ht : t.kind = .identifier) : Yields (.expression .primary (.ident t.lexeme)) [t]
  | trueWord {t} (ht : t.kind = .trueWord) : Yields (.expression .primary (.bool true)) [t]
  | falseWord {t} (ht : t.kind = .falseWord) : Yields (.expression .primary (.bool false)) [t]
  | group {e o c w} (ho : o.kind = .lparen) (hc : c.kind = .rparen) (he : Yields (.expression .comparison e) w) :
      Yields (.expression .primary e) (o :: (w ++ [c]))
  | ifThen {c y t w w'} (ht : t.kind = .ifWord) (hc : Yields (.condition c) w) (hy : Yields (.block y) w') :
      Yields (.expression .primary (.ifThen c y)) (t :: (w ++ w'))
  | ifElse {c y n t u w w' w''} (ht : t.kind = .ifWord) (hu : u.kind = .elseWord) (hc : Yields (.condition c) w)
      (hy : Yields (.block y) w') (hn : Yields (.block n) w'') :
      Yields (.expression .primary (.ifElse c y n)) (t :: (w ++ (w' ++ u :: w'')))
  | fn {params b t o c w w'} (ht : t.kind = .fnWord) (ho : o.kind = .lparen) (hc : c.kind = .rparen)
      (hparams : Yields (.items (params.map .name)) w) (hb : Yields (.block b) w') :
      Yields (.expression .primary (.fn params b)) (t :: o :: (w ++ c :: w'))
  | array {es o c w} (ho : o.kind = .lsquare) (hc : c.kind = .rsquare)
      (hes : Yields (.items (es.map (.expression .comparison))) w) :
      Yields (.expression .primary (.array es)) (o :: (w ++ [c]))
  -- Lists, and what constructs have in common.
  | name {t} (ht : t.kind = .identifier) : Yields (.name t.lexeme) [t]
  | noItems : Yields (.items []) []
  | lastItem {p w} (hp : Yields p w) : Yields (.items [p]) w
  | moreItems {p q ps t w w'} (ht : t.kind = .comma) (hp : Yields p w) (hps : Yields (.items (q :: ps)) w') :
      Yields (.items (p :: q :: ps)) (w ++ t :: w')
  | condition {e o c w} (ho : o.kind = .lparen) (hc : c.kind = .rparen) (he : Yields (.expression .comparison e) w) :
      Yields (.condition e) (o :: (w ++ [c]))
  | block {ss o c w} (ho : o.kind = .lbrace) (hc : c.kind = .rbrace) (hss : Yields (.statements ss) w) :
      Yields (.block (.block ss)) (o :: (w ++ [c]))
  -- Statements.  What follows an open end must not carry it on: without this rule one list of tokens could be split
  -- into statements in several ways.
  | letStmt {x e t n a w} (ht : t.kind = .letWord) (hn : n.kind = .identifier) (hx : n.lexeme = x)
      (ha : a.kind = .assign) (he : Yields (.expression .comparison e) w) :
      Yields (.statement (.letStmt x e)) (t :: n :: a :: w)
  | returnStmt {e t w} (ht : t.kind = .returnWord) (he : Yields (.expression .comparison e) w) :
      Yields (.statement (.returnStmt e)) (t :: w)
  | whileStmt {c b t w w'} (ht : t.kind = .whileWord) (hc : Yields (.condition c) w) (hb : Yields (.block b) w') :
      Yields (.statement (.whileStmt c b)) (t :: (w ++ w'))
  | exprStmt {e w} (he : Yields (.expression .comparison e) w) : Yields (.statement (.exprStmt e)) w
  | noStatements : Yields (.statements []) []
  | moreStatements {s ss w w'} (hs : Yields (.statement s) w) (hss : Yields (.statements ss) w')
      (hend : endsOpen s → ∀ t ∈ w'.head?, t.kind ∉ carriers) : Yields (.statements (s :: ss)) (w ++ w')
  | program {ss w} (hss : Yields (.statements ss) w) : Yields (.program (.program ss)) w

def Phrase.isFilled : Phrase → Bool
  | .items _ | .statements _ | .program _ => false
  | _ => true

namespace Yields
variable {p : Phrase} {w : List Token}

theorem ne_nil (h : Yields p w) (hp : p.isFilled) : w ≠ [] := by
  induction h <;> simp_all [Phrase.isFilled]

theorem kind_not_mem_unwritten (h : Yields p w) : ∀ t ∈ w, t.kind ∉ unwritten := by
  have of_sign {k : Kind} {op : Operator} (hop : (k, op) ∈ signs) : k ∉ unwritten := by
    revert hop
    cases k <;> simp [signs, unwritten]
  have of_step {k : Kind} {op : Operator} (hop : (k, op) ∈ steps) : k ∉ unwritten := by
    revert hop
    cases k <;> simp [steps, unwritten]
  induction h with
  | binary hop _ _ ihl ihr =>
    have ht := Level.not_mem_unwritten hop
    simp_all [or_imp]
  | sign hop _ ih =>
    have ht := of_sign hop
    simp_all
  | step hop _ ih =>
    have ht := of_step hop
    simp_all [or_imp]
  | _ => simp_all [or_imp, unwritten]

theorem kind_ne_eof (h : Yields p w) : ∀ t ∈ w, t.kind ≠ .eof := fun t ht heof =>
  h.kind_not_mem_unwritten t ht (by simp [heof, unwritten])

theorem head_ne_else (h : Yields p w) : ∀ t ∈ w.head?, t.kind ≠ .elseWord := by
  have sign_ne {k : Kind} {op : Operator} (hop : (k, op) ∈ signs) : k ≠ .elseWord := by
    rintro rfl
    simp [signs] at hop
  -- A word that starts with a part starts as the part does, and such a part is never empty.
  induction h with
  | sign hop _ _ =>
    have ht := sign_ne hop
    simp_all
  | binary _ hl _ ih _ | step _ hl ih | call _ _ _ hl _ ih _ | index _ _ _ hl _ ih _ | moreStatements hl _ _ ih _ =>
    obtain ⟨t, w, rfl⟩ := List.exists_cons_of_ne_nil (hl.ne_nil rfl)
    simpa using ih
  | @moreItems p q ps t w w' ht _ _ ih _ =>
    cases w with
    | nil => simp [ht]
    | cons t' w => simpa using ih
  | _ => simp_all

/-- An expression of a tight level is one of every weaker level. -/
theorem weaken {level tight : Level} {e : Node} (hle : level.rank ≤ tight.rank)
    (h : Yields (.expression tight e) w) : Yields (.expression level e) w := by
  obtain ⟨n, hn⟩ := Nat.exists_eq_add_of_le hle
  induction n generalizing level with
  | zero =>
    have hlevel : tight = level := Level.rank_injective hn
    exact hlevel ▸ h
  | succ n ih =>
    have hnext := Level.rank_next level (by have := tight.rank_le_primary; omega)
    exact .lift (ih (by omega) (by omega))

end Yields

end Grammar
end Scriptlet
