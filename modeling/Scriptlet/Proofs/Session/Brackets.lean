import Scriptlet.Proofs.Tokens.Partition
import Scriptlet.Session.SourceUnit

/-! Brackets, counted in a text and counted among its tokens.  The text is split at its quotes and the scanner goes on
from token to token; both find the same characters outside of strings, and a symbol that stands there is a token. -/
namespace Scriptlet
namespace SourceUnit
open Text Token

/-- Whether a text that starts inside of a string or outside, as `inside` tells, ends inside of one. -/
def endsInside (inside : Bool) (cs : List Char) : Bool :=
  cs.foldl (fun inside c => if c = '"' then !inside else inside) inside

theorem outsideStrings_append (inside : Bool) (cs rest : List Char) :
    outsideStrings inside (cs ++ rest) = outsideStrings inside cs ++ outsideStrings (endsInside inside cs) rest := by
  induction cs generalizing inside with
  | nil => cases inside <;> rfl
  | cons c cs ih =>
    by_cases hc : c = '"'
    · simp [outsideStrings, endsInside, hc, ih]
    · cases inside <;> simp [outsideStrings, endsInside, hc, ih]

theorem endsInside_append (inside : Bool) (cs rest : List Char) :
    endsInside inside (cs ++ rest) = endsInside (endsInside inside cs) rest := List.foldl_append

theorem outsideStrings_of_not_mem {cs : List Char} (h : '"' ∉ cs) (inside : Bool) :
    outsideStrings inside cs = if inside then [] else cs := by
  induction cs with
  | nil => cases inside <;> rfl
  | cons c cs ih =>
    simp only [List.mem_cons, not_or] at h
    cases inside <;> simp [outsideStrings, Ne.symm h.1, ih h.2]

theorem endsInside_of_not_mem {cs : List Char} (h : '"' ∉ cs) (inside : Bool) : endsInside inside cs = inside := by
  induction cs with
  | nil => rfl
  | cons c cs ih =>
    simp only [List.mem_cons, not_or] at h
    simpa [endsInside, Ne.symm h.1] using ih h.2

theorem mem_of_mem_outsideStrings {inside : Bool} {cs : List Char} {c : Char} (h : c ∈ outsideStrings inside cs) :
    c ∈ cs := by
  induction cs generalizing inside with
  | nil => cases inside <;> cases h
  | cons d cs ih =>
    unfold outsideStrings at h
    split at h
    · exact List.mem_cons_of_mem d (ih h)
    · split at h
      · exact List.mem_cons_of_mem d (ih h)
      · rcases List.mem_cons.mp h with rfl | h
        · exact List.mem_cons_self
        · exact List.mem_cons_of_mem d (ih h)

def everyOther {α : Type} : List α → List α
  | [] => []
  | [a] => [a]
  | a :: _ :: rest => a :: everyOther rest

/-- What stands outside of strings is every other one of the pieces between the quotes. -/
theorem outsideStrings_eq_flatten (cs : List Char) :
    outsideStrings false cs = (everyOther (cs.splitOn '"')).flatten ∧
      outsideStrings true cs = (everyOther (cs.splitOn '"').tail).flatten := by
  induction cs with
  | nil => exact ⟨rfl, rfl⟩
  | cons c cs ih =>
    obtain ⟨piece, pieces, hpieces⟩ := List.exists_cons_of_ne_nil (List.splitOn_ne_nil '"' cs)
    have hsplit : (c :: cs).splitOn '"' = if c = '"' then [] :: piece :: pieces else (c :: piece) :: pieces := by
      rw [List.splitOn_eq_splitOnP] at hpieces
      rw [List.splitOn_eq_splitOnP, List.splitOnP_cons_eq_if_modifyHead, hpieces]
      simp
    rw [hpieces] at ih
    rw [hsplit]
    by_cases hc : c = '"'
    · cases pieces <;> simpa [outsideStrings, everyOther, hc] using ih.symm
    · cases pieces <;> simpa [outsideStrings, everyOther, hc] using ih

end SourceUnit

namespace Token
open SourceUnit
variable {t : Token} {cs spelling rest : List Char} {more : Char → Bool}

theorem ofSymbol?_second {c : Char} {e : Kind.Extension} (h : Kind.extension? c = some e) :
    Kind.ofSymbol? e.second = none := by
  have hextensions : ∀ e ∈ Kind.extensions, Kind.ofSymbol? e.second = none := by decide
  exact hextensions e (Kind.mem_extensions_of_extension? h)

theorem not_mem_symbols_of_extension? {c : Char} {e : Kind.Extension} (h : Kind.extension? c = some e) :
    e.alone ∉ Kind.symbols ∧ e.both ∉ Kind.symbols := by
  have hextensions : ∀ e ∈ Kind.extensions, e.alone ∉ Kind.symbols ∧ e.both ∉ Kind.symbols := by decide
  exact hextensions e (Kind.mem_extensions_of_extension? h)

theorem ofWord_not_mem_symbols (word : String) : Kind.ofWord word ∉ Kind.symbols := by
  have hwords : ∀ kind ∈ Kind.identifier :: Kind.keywords.map (·.2), kind ∉ Kind.symbols := by decide
  exact hwords _ (Kind.ofWord_mem word)

theorem ofSymbol?_of_isDigit {c : Char} (h : Text.isDigit c) : Kind.ofSymbol? c = none :=
  (not_mem_marks (not_mem_marks_of_isDigit h)).1

theorem ofSymbol?_of_continuesWord {c : Char} (h : continuesWord c) : Kind.ofSymbol? c = none := by
  refine (not_mem_marks fun hmark => ?_).1
  simp [continuesWord_eq_false_of_mem_marks hmark] at h

/-- A token is a symbol by itself, or of another kind and then no symbol stands in it outside of strings. -/
theorem Stands.symbol_or_not_mem (h : Stands t spelling rest) :
    (∃ c kind, Kind.ofSymbol? c = some kind ∧ t = ⟨kind, .singleton c⟩ ∧ spelling = [c]) ∨
      (t.kind ∉ Kind.symbols ∧ ∀ c ∈ outsideStrings false spelling, Kind.ofSymbol? c = none) := by
  cases h with
  | spelled h _ =>
    cases h with
    | symbol h => exact .inl ⟨_, _, h, rfl, rfl⟩
    | alone h =>
      refine .inr ⟨(not_mem_symbols_of_extension? h).1, fun c hc => ?_⟩
      rw [List.mem_singleton.mp (mem_of_mem_outsideStrings hc)]
      exact Kind.ofSymbol?_of_extension? h
    | both h =>
      refine .inr ⟨(not_mem_symbols_of_extension? h).2, fun c hc => ?_⟩
      have hmem := mem_of_mem_outsideStrings hc
      simp only [List.mem_cons, List.not_mem_nil, or_false] at hmem
      rcases hmem with rfl | rfl
      · exact Kind.ofSymbol?_of_extension? h
      · exact ofSymbol?_second h
    | string h =>
      refine .inr ⟨by simp [Kind.symbols], fun c hc => ?_⟩
      simp [outsideStrings, outsideStrings_append, outsideStrings_of_not_mem h] at hc
    | int hd hds =>
      refine .inr ⟨by simp [Kind.symbols], fun c hc => ?_⟩
      rcases List.mem_cons.mp (mem_of_mem_outsideStrings hc) with rfl | hmem
      · exact ofSymbol?_of_isDigit hd
      · exact ofSymbol?_of_isDigit (hds c hmem)
    | word hd hds =>
      refine .inr ⟨ofWord_not_mem_symbols _, fun c hc => ofSymbol?_of_continuesWord ?_⟩
      rcases List.mem_cons.mp (mem_of_mem_outsideStrings hc) with rfl | hmem
      · simp [continuesWord, hd]
      · exact hds c hmem
  | stray h =>
    refine .inr ⟨by simp [Kind.symbols], fun c hc => ?_⟩
    rw [List.mem_singleton.mp (mem_of_mem_outsideStrings hc)]
    exact (not_mem_marks h.not_mem_marks).1
  | openString h =>
    refine .inr ⟨by simp [Kind.symbols], fun c hc => ?_⟩
    simp [outsideStrings, outsideStrings_of_not_mem h] at hc

theorem second_ne_quote {c : Char} {e : Kind.Extension} (h : Kind.extension? c = some e) : e.second ≠ '"' := by
  have hextensions : ∀ e ∈ Kind.extensions, e.second ≠ '"' := by decide
  exact hextensions e (Kind.mem_extensions_of_extension? h)

theorem Spells.closes (h : Spells t cs more) : endsInside false cs = false := by
  cases h with
  | @symbol c _ h | @alone c _ h =>
    have hc : c ≠ '"' := by
      rintro rfl
      cases h
    simp [endsInside, hc]
  | @both c e h =>
    have hc : c ≠ '"' := by
      rintro rfl
      cases h
    simp [endsInside, hc, second_ne_quote h]
  | @string cs h =>
    have hinside : endsInside true cs = true := endsInside_of_not_mem h true
    have hlast : endsInside true (cs ++ ['"']) = false := by rw [endsInside_append, hinside]; rfl
    exact hlast
  | int hd hds =>
    refine endsInside_of_not_mem (fun hmem => ?_) false
    rcases List.mem_cons.mp hmem with rfl | hmem
    · exact absurd hd (by decide)
    · exact absurd (hds _ hmem) (by decide)
  | word hd hds =>
    refine endsInside_of_not_mem (fun hmem => ?_) false
    rcases List.mem_cons.mp hmem with rfl | hmem
    · exact absurd hd (by decide)
    · exact absurd (hds _ hmem) (by decide)

/-- Only at the end of a text a token leaves a string open. -/
theorem Stands.closes (h : Stands t spelling rest) : endsInside false spelling = false ∨ rest = [] := by
  cases h with
  | spelled h _ => exact .inl h.closes
  | @stray c _ h =>
    have hc : c ≠ '"' := by
      rintro rfl
      exact h.not_mem_marks (by decide)
    exact .inl (by simp [endsInside, hc])
  | openString _ => exact .inr rfl

theorem ofSymbol?_injective {c d : Char} {kind : Kind} (hc : Kind.ofSymbol? c = some kind)
    (hd : Kind.ofSymbol? d = some kind) : c = d := by
  have hmarks : marks.all fun c => marks.all fun d =>
      Kind.ofSymbol? c = none || Kind.ofSymbol? c ≠ Kind.ofSymbol? d || c = d := by decide
  have hpair := List.all_eq_true.mp (List.all_eq_true.mp hmarks c (Kind.mem_marks_of_ofSymbol? hc)) d
    (Kind.mem_marks_of_ofSymbol? hd)
  simpa [hc, hd] using hpair

theorem endsInside_of_blank {gap : List Char} (hgap : ∀ d ∈ gap, Text.isBlank d) (inside : Bool) :
    endsInside inside gap = inside :=
  endsInside_of_not_mem (fun hmem => absurd (hgap _ hmem) (by decide)) inside

variable {c : Char} {kind : Kind} (hc : Kind.ofSymbol? c = some kind)
include hc

theorem Stands.count (h : Stands t spelling rest) :
    (outsideStrings false (spelling ++ rest)).count c =
      (if t.kind = kind then 1 else 0) + (outsideStrings false rest).count c := by
  have hrest : outsideStrings (endsInside false spelling) rest = outsideStrings false rest := by
    rcases h.closes with hclosed | rfl
    · rw [hclosed]
    · cases endsInside false spelling <;> rfl
  rw [outsideStrings_append, hrest, List.count_append]
  congr 1
  rcases h.symbol_or_not_mem with ⟨d, kind', hd, rfl, rfl⟩ | ⟨hkind, hcode⟩
  · have hquote : d ≠ '"' := by
      rintro rfl
      cases hd
    have hsame : d = c ↔ kind' = kind := by
      constructor
      · rintro rfl
        exact Option.some.inj (hd.symm.trans hc)
      · rintro rfl
        exact ofSymbol?_injective hd hc
    simp [outsideStrings, hquote, List.count_singleton, hsame]
  · have hne : t.kind ≠ kind := (Kind.ne_of_ofSymbol? hc hkind).symm
    have hnone : c ∉ outsideStrings false spelling := fun hmem => by simp [hcode c hmem] at hc
    rw [if_neg hne, List.count_eq_zero.mpr hnone]

theorem count_of_blank {gap : List Char} (hgap : ∀ d ∈ gap, Text.isBlank d) (inside : Bool) :
    (outsideStrings inside gap).count c = 0 := by
  refine List.count_eq_zero.mpr fun hmem => ?_
  have hblank := hgap c (mem_of_mem_outsideStrings hmem)
  simp [(classes_of_mem_marks (Kind.mem_marks_of_ofSymbol? hc)).1] at hblank

theorem count_outsideStrings (cs : List Char) :
    (outsideStrings false cs).count c = (tokens cs).countP (·.kind = kind) := by
  induction cs using steps.induct with
  | case1 cs hnone =>
    rw [tokens_of_first?_eq_none hnone, count_of_blank hc (isBlank_of_first?_eq_none hnone)]
    rfl
  | case2 cs t rest hfirst ih =>
    obtain ⟨gap, spelling, rfl, hgap, hstands⟩ := stands_of_first? hfirst
    rw [tokens_of_first?_eq_some hfirst, outsideStrings_append, endsInside_of_blank hgap, List.count_append,
      count_of_blank hc hgap, hstands.count hc, ih, List.countP_cons]
    simp [Nat.add_comm]

/-- Blanks around a text make no difference to that, though scanning starts without them. -/
theorem count_ofSource (source : List Char) :
    (outsideStrings false source).count c = (ofSource source).countP (·.kind = kind) := by
  obtain ⟨before, after, hsource, hbefore, hafter⟩ := Text.exists_trim source
  calc (outsideStrings false source).count c
      = (outsideStrings false (before ++ (Text.trim source ++ after))).count c := by rw [← hsource]
    _ = (outsideStrings false (Text.trim source)).count c := by
      simp [outsideStrings_append, endsInside_of_blank hbefore, count_of_blank hc hbefore, count_of_blank hc hafter]
    _ = (ofSource source).countP (·.kind = kind) := count_outsideStrings hc _

end Token

def Kind.brackets : List (Kind × Kind) := [(.lparen, .rparen), (.lsquare, .rsquare), (.lbrace, .rbrace)]

namespace SourceUnit
open Token

theorem hasOpenBrackets_eq_any (line : List Char) :
    hasOpenBrackets line = Kind.brackets.any fun (opening, closing) =>
      (ofSource line).countP (·.kind = closing) < (ofSource line).countP (·.kind = opening) := by
  have hround : Kind.ofSymbol? '(' = some .lparen ∧ Kind.ofSymbol? ')' = some .rparen := ⟨rfl, rfl⟩
  have hsquare : Kind.ofSymbol? '[' = some .lsquare ∧ Kind.ofSymbol? ']' = some .rsquare := ⟨rfl, rfl⟩
  have hcurly : Kind.ofSymbol? '\x7b' = some .lbrace ∧ Kind.ofSymbol? '\x7d' = some .rbrace := ⟨rfl, rfl⟩
  simp [hasOpenBrackets, brackets, Kind.brackets, count_ofSource hround.1, count_ofSource hround.2,
    count_ofSource hsquare.1, count_ofSource hsquare.2, count_ofSource hcurly.1, count_ofSource hcurly.2]

/-- Two readings of a text agree on its brackets.  One splits the text at its quotes, takes every other piece and counts
characters; the other counts tokens.  Either way the text has open brackets if more of some kind open than close. -/
theorem open_brackets_agree (line : List Char) :
    (hasOpenBrackets line ↔ ∃ pair ∈ brackets, (everyOther (line.splitOn '"')).flatten.count pair.2 <
      (everyOther (line.splitOn '"')).flatten.count pair.1) ∧
    (hasOpenBrackets line ↔ ∃ pair ∈ Kind.brackets, (ofSource line).countP (·.kind = pair.2) <
      (ofSource line).countP (·.kind = pair.1)) := by
  constructor
  · rw [← (outsideStrings_eq_flatten line).1, hasOpenBrackets, List.any_eq_true]
    simp only [decide_eq_true_eq]
  · rw [hasOpenBrackets_eq_any, List.any_eq_true]
    simp only [decide_eq_true_eq]

end SourceUnit
end Scriptlet
