import Mathlib.Data.List.TakeWhile
import Scriptlet.Proofs.Parsing.Exactness
import Scriptlet.Proofs.Text.Classes

/-! How tokens are spelled.  Scanning takes the longest token off the front of a text, so a spelling is read back as its
token unless the text after it carries the token on; and whatever is taken off a text was such a spelling, or is
illegal. -/
namespace Scriptlet

def Token.IsWord : List Char → Prop
  | [] => False
  | c :: rest => startsWord c ∧ ∀ d ∈ rest, continuesWord d

instance : DecidablePred Token.IsWord
  | [] => inferInstanceAs (Decidable False)
  | c :: rest =>
    -- Characters are finitely many, but it is those of the word that have to be tried.
    haveI : Decidable (∀ d ∈ rest, Token.continuesWord d) := List.decidableBAll _ rest
    inferInstanceAs (Decidable (Token.startsWord c ∧ ∀ d ∈ rest, Token.continuesWord d))

def Token.IsName (x : String) : Prop := IsWord x.toList ∧ Kind.ofWord x = .identifier

def Token.marks : List Char :=
  ['*', '/', '(', ')', '[', ']', '\x7b', '\x7d', ',', '+', '-', '=', '!', '<', '>', '"']

namespace Kind
open Token

theorem mem_marks_of_ofSymbol? {c : Char} {kind : Kind} (h : ofSymbol? c = some kind) : c ∈ marks := by
  unfold ofSymbol? at h
  split at h
  all_goals first | decide | cases h

theorem mem_marks_of_extension? {c : Char} {e : Extension} (h : extension? c = some e) : c ∈ marks := by
  unfold extension? at h
  split at h
  all_goals first | decide | cases h

/-- A character that one more may extend is no symbol by itself, and the quote is neither. -/
theorem ofSymbol?_of_extension? {c : Char} {e : Extension} (h : extension? c = some e) : ofSymbol? c = none := by
  unfold extension? at h
  split at h
  all_goals first | rfl | cases h

def symbols : List Kind := [asterisk, slash, lparen, rparen, lsquare, rsquare, lbrace, rbrace, comma]

theorem mem_symbols_of_ofSymbol? {c : Char} {kind : Kind} (h : ofSymbol? c = some kind) : kind ∈ symbols := by
  unfold ofSymbol? at h
  split at h
  all_goals cases h
  all_goals decide

def extensions : List Extension :=
  [⟨plus, '+', increment⟩, ⟨minus, '-', decrement⟩, ⟨assign, '=', eq⟩, ⟨neg, '=', neq⟩, ⟨lt, '=', lteq⟩, ⟨gt, '=', gteq⟩]

theorem mem_extensions_of_extension? {c : Char} {e : Extension} (h : extension? c = some e) : e ∈ extensions := by
  unfold extension? at h
  split at h
  all_goals cases h
  all_goals decide

theorem ne_of_ofSymbol? {c : Char} {kind kind' : Kind} (h : ofSymbol? c = some kind) (hkind' : kind' ∉ symbols) :
    kind ≠ kind' := fun heq => hkind' (heq ▸ mem_symbols_of_ofSymbol? h)

theorem ne_of_extension? {c : Char} {e : Extension} {kind : Kind} (h : extension? c = some e)
    (hkind : kind ∉ extensions.flatMap fun e => [e.alone, e.both]) : e.alone ≠ kind ∧ e.both ≠ kind := by
  have hmem {kind' : Kind} (h' : kind' ∈ [e.alone, e.both]) : kind' ∈ extensions.flatMap fun e => [e.alone, e.both] :=
    List.mem_flatMap.mpr ⟨e, mem_extensions_of_extension? h, h'⟩
  exact ⟨fun heq => hkind (heq ▸ hmem (by simp)), fun heq => hkind (heq ▸ hmem (by simp))⟩

theorem ofWord_mem (word : String) : ofWord word ∈ identifier :: keywords.map (·.2) := by
  unfold ofWord
  cases hlookup : keywords.lookup word with
  | none => exact List.mem_cons_self
  | some kind =>
    obtain ⟨before, after, heq, -⟩ := List.lookup_eq_some_iff.mp hlookup
    simp [heq]

end Kind

namespace Token
open Text

/-- A token, a way to write it, and the characters that would carry it on if one of them came next. -/
inductive Spells : Token → List Char → (Char → Bool) → Prop
  | symbol {c kind} (h : Kind.ofSymbol? c = some kind) : Spells ⟨kind, .singleton c⟩ [c] fun _ => false
  | alone {c e} (h : Kind.extension? c = some e) : Spells ⟨e.alone, .singleton c⟩ [c] (· = e.second)
  | both {c e} (h : Kind.extension? c = some e) :
      Spells ⟨e.both, .ofList [c, e.second]⟩ [c, e.second] fun _ => false
  | string {cs} (h : '"' ∉ cs) : Spells ⟨.string, .ofList cs⟩ ('"' :: (cs ++ ['"'])) fun _ => false
  | int {c cs} (hc : isDigit c) (hcs : ∀ d ∈ cs, isDigit d) : Spells ⟨.int, .ofList (c :: cs)⟩ (c :: cs) isDigit
  | word {c cs} (hc : startsWord c) (hcs : ∀ d ∈ cs, continuesWord d) :
      Spells ⟨Kind.ofWord (.ofList (c :: cs)), .ofList (c :: cs)⟩ (c :: cs) continuesWord

theorem classes_of_mem_marks {c : Char} (h : c ∈ marks) :
    isBlank c = false ∧ isDigit c = false ∧ startsWord c = false := by
  have hmarks : marks.all fun c => !isBlank c && !isDigit c && !startsWord c := by decide
  simpa [and_assoc] using List.all_eq_true.mp hmarks c h

theorem continuesWord_eq_false_of_mem_marks {c : Char} (h : c ∈ marks) : continuesWord c = false := by
  obtain ⟨-, hdigit, hstart⟩ := classes_of_mem_marks h
  simp [continuesWord, hdigit, hstart]

theorem isBlank_eq_false_of_isDigit {c : Char} (h : isDigit c) : isBlank c = false := by
  refine Bool.eq_false_iff.mpr fun hblank => ?_
  have hdigit := isDigit_eq_false_of_isBlank hblank
  simp [h] at hdigit

theorem isBlank_eq_false_of_startsWord {c : Char} (h : startsWord c) : isBlank c = false := by
  refine Bool.eq_false_iff.mpr fun hblank => ?_
  have hletter := isLetter_eq_false_of_isBlank hblank
  have hc : c = '_' := by simpa [startsWord, hletter] using h
  subst hc
  exact absurd hblank (by decide)

theorem isDigit_eq_false_of_startsWord {c : Char} (h : startsWord c) : isDigit c = false := by
  refine Bool.eq_false_iff.mpr fun hdigit => ?_
  have hletter := isLetter_eq_false_of_isDigit hdigit
  have hc : c = '_' := by simpa [startsWord, hletter] using h
  subst hc
  exact absurd hdigit (by decide)

theorem not_mem_marks {c : Char} (h : c ∉ marks) :
    Kind.ofSymbol? c = none ∧ Kind.extension? c = none ∧ c ≠ '"' := by
  refine ⟨?_, ?_, ?_⟩
  · exact Option.eq_none_iff_forall_ne_some.mpr fun _ hsymbol => h (Kind.mem_marks_of_ofSymbol? hsymbol)
  · exact Option.eq_none_iff_forall_ne_some.mpr fun _ hextension => h (Kind.mem_marks_of_extension? hextension)
  · rintro rfl
    exact h (by decide)

theorem not_mem_marks_of_eq_none {c : Char} (hsymbol : Kind.ofSymbol? c = none) (hextension : Kind.extension? c = none)
    (hquote : c ≠ '"') : c ∉ marks := by
  have hmarks : marks.all fun c => (Kind.ofSymbol? c).isSome || (Kind.extension? c).isSome || c = '"' := by decide
  intro hmem
  have hc := List.all_eq_true.mp hmarks c hmem
  simp [hsymbol, hextension, hquote] at hc

theorem not_mem_marks_of_isDigit {c : Char} (h : isDigit c) : c ∉ marks := fun hmark => by
  have hdigit := (classes_of_mem_marks hmark).2.1
  simp [h] at hdigit

theorem not_mem_marks_of_startsWord {c : Char} (h : startsWord c) : c ∉ marks := fun hmark => by
  have hword := (classes_of_mem_marks hmark).2.2
  simp [h] at hword

theorem takeWhile_append_of_head {p : Char → Bool} {cs rest : List Char} (hcs : ∀ c ∈ cs, p c)
    (hrest : ∀ c ∈ rest.head?, p c = false) : (cs ++ rest).takeWhile p = cs := by
  rw [List.takeWhile_append_of_pos hcs]
  cases rest with
  | nil => simp
  | cons d rest => simp [hrest d rfl]

theorem dropWhile_append_of_head {p : Char → Bool} {cs rest : List Char} (hcs : ∀ c ∈ cs, p c)
    (hrest : ∀ c ∈ rest.head?, p c = false) : (cs ++ rest).dropWhile p = rest := by
  rw [List.dropWhile_append_of_pos hcs]
  cases rest with
  | nil => simp
  | cons d rest => simp [hrest d rfl]

namespace Spells
variable {t : Token} {cs rest : List Char} {more : Char → Bool}

theorem exists_cons (h : Spells t cs more) : ∃ c tail, cs = c :: tail ∧ isBlank c = false := by
  cases h with
  | symbol h => exact ⟨_, _, rfl, (classes_of_mem_marks (Kind.mem_marks_of_ofSymbol? h)).1⟩
  | alone h | both h => exact ⟨_, _, rfl, (classes_of_mem_marks (Kind.mem_marks_of_extension? h)).1⟩
  | string _ => exact ⟨_, _, rfl, (classes_of_mem_marks (by decide)).1⟩
  | int hc _ => exact ⟨_, _, rfl, isBlank_eq_false_of_isDigit hc⟩
  | word hc _ => exact ⟨_, _, rfl, isBlank_eq_false_of_startsWord hc⟩

theorem takeFrom_eq {c : Char} {tail : List Char} (h : Spells t (c :: tail) more)
    (hrest : ∀ d ∈ rest.head?, more d = false) : takeFrom c (tail ++ rest) = (t, rest) := by
  generalize hspelled : c :: tail = cs at h
  cases h with
  | symbol h =>
    obtain ⟨rfl, rfl⟩ := List.cons.inj hspelled
    simp [takeFrom, h]
  | @alone _ e h =>
    obtain ⟨rfl, rfl⟩ := List.cons.inj hspelled
    cases rest with
    | nil => simp [takeFrom, Kind.ofSymbol?_of_extension? h, h, takeExtensible]
    | cons d rest =>
      have hd : d ≠ e.second := by simpa using hrest d rfl
      simp [takeFrom, Kind.ofSymbol?_of_extension? h, h, takeExtensible, hd]
  | both h =>
    obtain ⟨rfl, rfl⟩ := List.cons.inj hspelled
    simp [takeFrom, Kind.ofSymbol?_of_extension? h, h, takeExtensible]
  | @string cs h =>
    obtain ⟨rfl, rfl⟩ := List.cons.inj hspelled
    have hcs : ∀ d ∈ cs, decide (d ≠ '"') := by
      intro d hd
      have hne : d ≠ '"' := fun heq => h (heq ▸ hd)
      simpa using hne
    have htake : takeString (cs ++ '"' :: rest) = (⟨.string, .ofList cs⟩, rest) := by
      unfold takeString
      rw [takeWhile_append_of_head hcs (by simp), dropWhile_append_of_head hcs (by simp)]
    simpa [takeFrom, Kind.ofSymbol?, Kind.extension?] using htake
  | int hc hcs =>
    obtain ⟨rfl, rfl⟩ := List.cons.inj hspelled
    obtain ⟨hsymbol, hextension, hquote⟩ := not_mem_marks (not_mem_marks_of_isDigit hc)
    simp [takeFrom, hsymbol, hextension, hquote, hc, takeWhile_append_of_head hcs hrest,
      dropWhile_append_of_head hcs hrest]
  | word hc hcs =>
    obtain ⟨rfl, rfl⟩ := List.cons.inj hspelled
    obtain ⟨hsymbol, hextension, hquote⟩ := not_mem_marks (not_mem_marks_of_startsWord hc)
    simp [takeFrom, hsymbol, hextension, hquote, isDigit_eq_false_of_startsWord hc, hc,
      takeWhile_append_of_head hcs hrest, dropWhile_append_of_head hcs hrest]

theorem isName (h : Spells t cs more) (hkind : t.kind = .identifier) : IsName t.lexeme := by
  cases h with
  | symbol h => exact absurd hkind (Kind.ne_of_ofSymbol? h (by decide))
  | alone h => exact absurd hkind (Kind.ne_of_extension? h (by decide)).1
  | both h => exact absurd hkind (Kind.ne_of_extension? h (by decide)).2
  | string _ | int _ _ => cases hkind
  | word hc hcs =>
    refine ⟨?_, hkind⟩
    rw [String.toList_ofList]
    exact ⟨hc, hcs⟩

theorem quote_not_mem (h : Spells t cs more) (hkind : t.kind = .string) : '"' ∉ t.lexeme.toList := by
  cases h with
  | symbol h => exact absurd hkind (Kind.ne_of_ofSymbol? h (by decide))
  | alone h => exact absurd hkind (Kind.ne_of_extension? h (by decide)).1
  | both h => exact absurd hkind (Kind.ne_of_extension? h (by decide)).2
  | string h => simpa using h
  | int _ _ => cases hkind
  | @word c cs _ _ =>
    have hword := Kind.ofWord_mem (.ofList (c :: cs))
    simp only at hkind
    rw [hkind] at hword
    exact absurd hword (by decide)

end Spells

structure IsStray (c : Char) : Prop where
  not_mem_marks : c ∉ marks
  isBlank : isBlank c = false
  isDigit : isDigit c = false
  startsWord : startsWord c = false

/-- A token and the characters that write it, in front of a text that does not carry it on.  Of illegal tokens, a stray
character stands anywhere and an open string at the end of the text. -/
inductive Stands : Token → (spelling rest : List Char) → Prop
  | spelled {t spelling rest more} (h : Spells t spelling more) (hrest : ∀ d ∈ rest.head?, more d = false) :
      Stands t spelling rest
  | stray {c rest} (h : IsStray c) : Stands ⟨.illegal, .singleton c⟩ [c] rest
  | openString {cs} (h : '"' ∉ cs) : Stands ⟨.illegal, .ofList cs⟩ ('"' :: cs) []

theorem first?_append_of_blank {gap : List Char} (hgap : ∀ c ∈ gap, isBlank c) (cs : List Char) :
    first? (gap ++ cs) = first? cs := by
  simp only [first?, trimStart, List.dropWhile_append_of_pos hgap]

theorem takeFrom_of_isStray {c : Char} (h : IsStray c) (rest : List Char) :
    takeFrom c rest = (⟨.illegal, .singleton c⟩, rest) := by
  obtain ⟨hsymbol, hextension, hquote⟩ := not_mem_marks h.not_mem_marks
  simp [takeFrom, hsymbol, hextension, hquote, h.isDigit, h.startsWord]

theorem takeString_of_not_mem {cs : List Char} (h : '"' ∉ cs) : takeString cs = (⟨.illegal, .ofList cs⟩, []) := by
  have hcs : ∀ c ∈ cs, decide (c ≠ '"') := fun c hc => by simpa using fun heq : c = '"' => h (heq ▸ hc)
  rw [takeString, List.dropWhile_eq_nil_iff.mpr hcs]

namespace Stands
variable {t : Token} {spelling rest : List Char}

theorem exists_cons (h : Stands t spelling rest) : ∃ c tail, spelling = c :: tail ∧ isBlank c = false := by
  cases h with
  | spelled h _ => exact h.exists_cons
  | stray h => exact ⟨_, _, rfl, h.isBlank⟩
  | openString _ => exact ⟨_, _, rfl, (classes_of_mem_marks (by decide)).1⟩

theorem takeFrom_eq {c : Char} {tail : List Char} (h : Stands t (c :: tail) rest) :
    takeFrom c (tail ++ rest) = (t, rest) := by
  cases h with
  | spelled h hrest => exact h.takeFrom_eq hrest
  | stray h => exact takeFrom_of_isStray h rest
  | openString h => simpa [takeFrom, Kind.ofSymbol?, Kind.extension?] using takeString_of_not_mem h

/-- A token is read back from where it stands. -/
theorem first?_eq (h : Stands t spelling rest) : first? (spelling ++ rest) = some (t, rest) := by
  obtain ⟨c, tail, rfl, hblank⟩ := h.exists_cons
  have htrim : trimStart (c :: (tail ++ rest)) = c :: (tail ++ rest) := by simp [trimStart, hblank]
  simp [first?, htrim, h.takeFrom_eq]

end Stands

theorem Spells.tokens_eq {t : Token} {cs rest : List Char} {more : Char → Bool} (h : Spells t cs more)
    (hrest : ∀ d ∈ rest.head?, more d = false) : tokens (cs ++ rest) = t :: tokens rest :=
  tokens_of_first?_eq_some (Stands.spelled h hrest).first?_eq

theorem stands_takeExtensible {c : Char} {e : Kind.Extension} (h : Kind.extension? c = some e) (rest : List Char) :
    ∃ spelling, Stands (takeExtensible c e rest).1 spelling (takeExtensible c e rest).2 ∧
      spelling ++ (takeExtensible c e rest).2 = c :: rest := by
  cases rest with
  | nil => exact ⟨[c], .spelled (.alone h) (by simp [takeExtensible]), rfl⟩
  | cons d rest =>
    by_cases hd : d = e.second
    · subst hd
      simp only [takeExtensible, if_true]
      exact ⟨[c, e.second], .spelled (.both h) (by simp), rfl⟩
    · simp only [takeExtensible, hd, if_false]
      exact ⟨[c], .spelled (.alone h) (by simpa using hd), rfl⟩

theorem quote_not_mem_takeWhile (cs : List Char) : '"' ∉ cs.takeWhile (· ≠ '"') := by
  intro hmem
  simpa using List.mem_takeWhile_imp hmem

theorem stands_takeString (rest : List Char) :
    ∃ spelling, Stands (takeString rest).1 spelling (takeString rest).2 ∧
      spelling ++ (takeString rest).2 = '"' :: rest := by
  have hrest := List.takeWhile_append_dropWhile (p := (· ≠ '"')) (l := rest)
  have hclosed := quote_not_mem_takeWhile rest
  unfold takeString
  split
  · next hnil =>
    -- No quote closes the string, so all that is left is what stands before one.
    rw [hnil, List.append_nil] at hrest
    rw [hrest] at hclosed
    exact ⟨'"' :: rest, .openString hclosed, by simp⟩
  · next d after heq =>
    have hd : d = '"' := by
      have hhead := List.head?_dropWhile_not (· ≠ '"') rest
      rw [heq] at hhead
      simpa using hhead
    subst hd
    rw [heq] at hrest
    exact ⟨_, .spelled (.string hclosed) (by simp), by simpa using hrest⟩

theorem dropWhile_head (p : Char → Bool) (cs : List Char) : ∀ d ∈ (cs.dropWhile p).head?, p d = false := by
  intro d hd
  have hhead := List.head?_dropWhile_not p cs
  rw [Option.mem_def.mp hd] at hhead
  simpa using hhead

/-- What is taken off a text stands in front of what is left. -/
theorem stands_takeFrom {c : Char} (hblank : isBlank c = false) (rest : List Char) :
    ∃ spelling, Stands (takeFrom c rest).1 spelling (takeFrom c rest).2 ∧
      spelling ++ (takeFrom c rest).2 = c :: rest := by
  unfold takeFrom
  split
  · next kind h => exact ⟨[c], .spelled (.symbol h) (by simp), rfl⟩
  · next hsymbol =>
    split
    · next e h => exact stands_takeExtensible h rest
    · next hextension =>
      split
      · next hquote =>
        subst hquote
        exact stands_takeString rest
      · next hquote =>
        split
        · next hdigit =>
          have hcs : ∀ d ∈ rest.takeWhile isDigit, isDigit d := fun d hd => List.mem_takeWhile_imp hd
          exact ⟨_, .spelled (.int hdigit hcs) (dropWhile_head isDigit rest), by simp⟩
        · next hdigit =>
          split
          · next hword =>
            have hcs : ∀ d ∈ rest.takeWhile continuesWord, continuesWord d := fun d hd => List.mem_takeWhile_imp hd
            exact ⟨_, .spelled (.word hword hcs) (dropWhile_head continuesWord rest), by simp⟩
          · next hword =>
            have hmark : c ∉ marks := not_mem_marks_of_eq_none hsymbol hextension hquote
            exact ⟨[c], .stray ⟨hmark, hblank, by simpa using hdigit, by simpa using hword⟩, rfl⟩

theorem stands_of_first? {cs rest : List Char} {t : Token} (h : first? cs = some (t, rest)) :
    ∃ gap spelling, cs = gap ++ (spelling ++ rest) ∧ (∀ c ∈ gap, isBlank c) ∧ Stands t spelling rest := by
  unfold first? at h
  split at h
  · cases h
  · next c tail heq =>
    have hhead : c ∈ (trimStart cs).head? := by simp [heq]
    have hblank : isBlank c = false := dropWhile_head isBlank cs c hhead
    obtain ⟨spelling, hstands, htail⟩ := stands_takeFrom hblank tail
    have htake : takeFrom c tail = (t, rest) := Option.some.inj h
    rw [htake] at hstands htail
    refine ⟨cs.takeWhile isBlank, spelling, ?_, fun d hd => List.mem_takeWhile_imp hd, hstands⟩
    rw [htail, ← heq, trimStart, List.takeWhile_append_dropWhile]

/-- Every token of a text has a spelling, or is illegal. -/
theorem exists_spells_of_mem_tokens {cs : List Char} {t : Token} (h : t ∈ tokens cs) :
    t.kind = .illegal ∨ ∃ spelling more, Spells t spelling more := by
  cases hfirst : first? cs with
  | none => simp [tokens_of_first?_eq_none hfirst] at h
  | some pair =>
    obtain ⟨t', rest⟩ := pair
    rw [tokens_of_first?_eq_some hfirst] at h
    rcases List.mem_cons.mp h with rfl | hmem
    · obtain ⟨gap, spelling, -, -, hstands⟩ := stands_of_first? hfirst
      cases hstands with
      | spelled hspells _ => exact .inr ⟨_, _, hspells⟩
      | stray _ | openString _ => exact .inl rfl
    · have hlt := length_first?_lt hfirst
      exact exists_spells_of_mem_tokens hmem
termination_by cs.length

theorem tokens_append_of_blank {gap : List Char} (hgap : ∀ c ∈ gap, isBlank c) (cs : List Char) :
    tokens (gap ++ cs) = tokens cs := by
  have hfirst := first?_append_of_blank hgap cs
  cases hcs : first? cs with
  | none => rw [tokens_of_first?_eq_none (hfirst.trans hcs), tokens_of_first?_eq_none hcs]
  | some pair => rw [tokens_of_first?_eq_some (hfirst.trans hcs), tokens_of_first?_eq_some hcs]

theorem tokens_cons_of_isBlank {c : Char} (hc : isBlank c) (rest : List Char) : tokens (c :: rest) = tokens rest := by
  have hgap : ∀ d ∈ [c], isBlank d := by simpa using hc
  exact tokens_append_of_blank hgap rest

end Token
end Scriptlet
