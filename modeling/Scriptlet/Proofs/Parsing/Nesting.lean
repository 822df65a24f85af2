import Mathlib
import Scriptlet.Proofs.Parsing.Exactness
import Scriptlet.Proofs.Session.Brackets
import Scriptlet.Shell

/-! Programs nest their brackets.  Every construct of the grammar closes the brackets that it opens, each by one of its
own kind and the inner ones first; so no text with open brackets is a program, and a line that waits for more lines has
nothing complete before it. -/
namespace Scriptlet

def Kind.isBracket (kind : Kind) : Bool := brackets.any fun (opening, closing) => kind = opening || kind = closing

namespace Grammar
open SourceUnit Token

/-- Brackets that are closed in the reverse of the order in which they are opened. -/
inductive Nested : List Kind → Prop
  | nil : Nested []
  | enclose {opening closing w} (h : (opening, closing) ∈ Kind.brackets) (hw : Nested w) :
      Nested (opening :: (w ++ [closing]))
  | append {w w'} (hw : Nested w) (hw' : Nested w') : Nested (w ++ w')

theorem Nested.count_eq {w : List Kind} (h : Nested w) {pair : Kind × Kind} (hpair : pair ∈ Kind.brackets) :
    w.count pair.1 = w.count pair.2 := by
  induction h with
  | nil => rfl
  | @enclose opening closing w h _ ih =>
    have hpairs : ∀ p ∈ Kind.brackets, ∀ q ∈ Kind.brackets, [p.1, p.2].count q.1 = [p.1, p.2].count q.2 := by decide
    have hboth := hpairs (opening, closing) h pair hpair
    simp only [List.count_cons, List.count_append, List.count_nil] at hboth ⊢
    omega
  | append _ _ ih ih' => rw [List.count_append, List.count_append, ih, ih']

def bracketsOf (ts : List Token) : List Kind := (ts.map (·.kind)).filter Kind.isBracket

theorem count_bracketsOf {kind : Kind} (h : kind.isBracket) (ts : List Token) :
    (bracketsOf ts).count kind = ts.countP (·.kind = kind) := by
  rw [bracketsOf, List.count_filter h, List.count, List.countP_map]
  rfl

def Balanced (ts : List Token) : Prop := Nested (bracketsOf ts)

namespace Balanced
variable {w w' : List Token} {t opening closing : Token}

theorem append (h : Balanced w) (h' : Balanced w') : Balanced (w ++ w') := by
  rw [Balanced, bracketsOf, List.map_append, List.filter_append]
  exact .append h h'

theorem nil : Balanced [] := Nested.nil

theorem cons (ht : t.kind.isBracket = false) (h : Balanced w) : Balanced (t :: w) := by
  rw [Balanced, bracketsOf, List.map_cons, List.filter_cons_of_neg (by simp [ht])]
  exact h

theorem single (ht : t.kind.isBracket = false) : Balanced [t] := .cons ht .nil

theorem enclose {kinds : Kind × Kind} (hkinds : kinds ∈ Kind.brackets) (ho : opening.kind = kinds.1)
    (hc : closing.kind = kinds.2) (h : Balanced w) : Balanced (opening :: (w ++ [closing])) := by
  have hbrackets : ∀ kinds ∈ Kind.brackets, kinds.1.isBracket ∧ kinds.2.isBracket := by decide
  obtain ⟨hopening, hclosing⟩ := hbrackets kinds hkinds
  have hlist : bracketsOf (opening :: (w ++ [closing])) = kinds.1 :: (bracketsOf w ++ [kinds.2]) := by
    simp [bracketsOf, ho, hc, hopening, hclosing]
  rw [Balanced, hlist]
  exact .enclose hkinds h

end Balanced

theorem Yields.balanced {p : Phrase} {w : List Token} (h : Yields p w) : Balanced w := by
  have plain {t : Token} {kind : Kind} (ht : t.kind = kind) (hkind : kind.isBracket = false) :
      t.kind.isBracket = false := ht ▸ hkind
  have operator {level : Level} : ∀ entry ∈ level.operators, entry.1.isBracket = false := by cases level <;> decide
  have sign : ∀ entry ∈ signs, entry.1.isBracket = false := by decide
  have step : ∀ entry ∈ steps, entry.1.isBracket = false := by decide
  have round : (Kind.lparen, Kind.rparen) ∈ Kind.brackets := by decide
  have square : (Kind.lsquare, Kind.rsquare) ∈ Kind.brackets := by decide
  have curly : (Kind.lbrace, Kind.rbrace) ∈ Kind.brackets := by decide
  induction h with
  | lift _ ih | lastItem _ ih | exprStmt _ ih | program _ ih => exact ih
  | binary hop _ _ ihl ihr => exact ihl.append (ihr.cons (operator _ hop))
  | sign hop _ ih => exact ih.cons (sign _ hop)
  | step hop _ ih => exact ih.append (.single (step _ hop))
  | call _ ho hc _ _ ih ihargs => exact ih.append (ihargs.enclose round ho hc)
  | index _ ho hc _ _ ih ihi => exact ih.append (ihi.enclose square ho hc)
  | int ht _ | str ht | ident ht | trueWord ht | falseWord ht | name ht => exact .single (plain ht rfl)
  | group ho hc _ ih | condition ho hc _ ih => exact ih.enclose round ho hc
  | ifThen ht _ _ ihc ihy => exact (ihc.append ihy).cons (plain ht rfl)
  | ifElse ht hu _ _ _ ihc ihy ihn => exact (ihc.append (ihy.append (ihn.cons (plain hu rfl)))).cons (plain ht rfl)
  | fn ht ho hc _ _ ihparams ihb =>
    have hall := (ihparams.enclose round ho hc).append ihb
    rw [List.cons_append, List.append_assoc] at hall
    exact hall.cons (plain ht rfl)
  | array ho hc _ ih => exact ih.enclose square ho hc
  | noItems | noStatements => exact .nil
  | moreItems ht _ _ ihp ihps => exact ihp.append (ihps.cons (plain ht rfl))
  | block ho hc _ ih => exact ih.enclose curly ho hc
  | letStmt ht hn _ ha _ ih => exact ((ih.cons (plain ha rfl)).cons (plain hn rfl)).cons (plain ht rfl)
  | returnStmt ht _ ih => exact ih.cons (plain ht rfl)
  | whileStmt ht _ _ ihc ihb => exact (ihc.append ihb).cons (plain ht rfl)
  | moreStatements _ _ _ ihs ihss => exact ihs.append ihss

theorem balanced_of_parse {source : String} {n : Node} (h : Program.parse source = .ok n) :
    Balanced (ofSource source.toList) := by
  have hyields : Yields (.program n) (ofSource source.toList) :=
    ofTokens_eq_ok_iff_yields (fun _ ht => kind_ne_eof_of_mem_tokens ht) n |>.mp h
  exact hyields.balanced

/-- Balanced tokens leave no bracket open, whatever stands in the strings between them. -/
theorem hasOpenBrackets_eq_false {line : List Char} (h : Balanced (ofSource line)) : hasOpenBrackets line = false := by
  have hbrackets : ∀ kinds ∈ Kind.brackets, kinds.1.isBracket ∧ kinds.2.isBracket := by decide
  rw [hasOpenBrackets_eq_any, List.any_eq_false]
  intro kinds hkinds
  obtain ⟨hopening, hclosing⟩ := hbrackets kinds hkinds
  have hcount := h.count_eq hkinds
  rw [count_bracketsOf hopening, count_bracketsOf hclosing] at hcount
  simp [hcount]

/-- A program nests its brackets, so it has none that are open.  Whenever a line is to be continued, in a file or as
typed in, the unit gathered so far is no program. -/
theorem programs_never_held_back :
    (∀ source n, Program.parse source = .ok n →
      Nested (bracketsOf (ofSource source.toList)) ∧ hasOpenBrackets source.toList = false) ∧
    (∀ pending line, hasOpenBrackets (join pending line) →
      ∀ n, Program.parse (String.ofList (join pending line)) ≠ .ok n) ∧
    ∀ (sh : Shell) (line : List Char), (sh.gather line).1 = none →
      ∀ n, Program.parse (String.ofList (sh.gather line).2.pending) ≠ .ok n := by
  have never {cs : List Char} (hopen : hasOpenBrackets cs) (n : Node) : Program.parse (String.ofList cs) ≠ .ok n := by
    intro hparse
    have hclosed := hasOpenBrackets_eq_false (balanced_of_parse hparse)
    rw [String.toList_ofList, hopen] at hclosed
    cases hclosed
  refine ⟨fun source n h => ⟨balanced_of_parse h, hasOpenBrackets_eq_false (balanced_of_parse h)⟩,
    fun pending line hopen => never hopen, fun sh line hgather => ?_⟩
  by_cases hopen : hasOpenBrackets (join sh.pending line)
  · have hpending : (sh.gather line).2.pending = join sh.pending line := by simp [Shell.gather, hopen]
    rw [hpending]
    exact never hopen
  · simp [Shell.gather, hopen] at hgather

set_option maxRecDepth 8000 in
/-- The bracket in the string is none.  Without its last bracket the unit is held back. -/
theorem quotedBracket_never_held_back :
    Program.parse "f([\")\"])" = .ok (.program [.exprStmt (.call (.ident "f") [.array [.str ")"]])]) ∧
    Nested (bracketsOf (ofSource "f([\")\"])".toList)) ∧ hasOpenBrackets "f([\")\"])".toList = false ∧
    hasOpenBrackets (join "f(".toList "[\")\"]".toList) ∧
    (∀ n, Program.parse (String.ofList (join "f(".toList "[\")\"]".toList)) ≠ .ok n) ∧
    ∃ sh : Shell, (sh.gather "[\")\"]".toList).1 = none ∧
      ∀ n, Program.parse (String.ofList (sh.gather "[\")\"]".toList).2.pending) ≠ .ok n := by
  have hparse : Program.parse "f([\")\"])" = .ok (.program [.exprStmt (.call (.ident "f") [.array [.str ")"]])]) := by cbv
  have hopen : hasOpenBrackets (join "f(".toList "[\")\"]".toList) := by decide
  let s : Session := ⟨.new false .plain, "<in>", .evaluator, ⟨.null, .flat, 9, 9⟩, .initial, []⟩
  let sh : Shell := ⟨s, "f(".toList, 1, .continuing⟩
  have hgather : (sh.gather "[\")\"]".toList).1 = none := by
    rw [Shell.gather, if_pos hopen]
  obtain ⟨hprograms, hlines, htyped⟩ := programs_never_held_back
  obtain ⟨hnested, hclosed⟩ := hprograms _ _ hparse
  exact ⟨hparse, hnested, hclosed, hopen, hlines _ _ hopen, sh, hgather, htyped sh _ hgather⟩

end Grammar
end Scriptlet
