import Mathlib
import Scriptlet.Proofs.Tokens.Partition

/-! Texts that write tokens.  A text that is put together from spellings and blanks is scanned into the tokens of these
spellings, as long as none of them is carried on by what comes after it. -/
namespace Scriptlet
namespace Token
open Text

/-- As long as no word goes on after it, a text is scanned into these tokens and then what follows into its own. -/
def Writes (cs : List Char) (w : List Token) : Prop :=
  ∀ rest : List Char, (∀ c ∈ rest.head?, continuesWord c = false) → tokens (cs ++ rest) = w ++ tokens rest

namespace Writes
variable {c : Char} {cs cs' : List Char} {t : Token} {w w' : List Token} {more : Char → Bool}

theorem tokens_eq (h : Writes cs w) : tokens cs = w := by
  have hnil : tokens [] = [] := tokens_of_first?_eq_none rfl
  simpa [hnil] using h [] (by simp)

theorem nil : Writes [] [] := fun _ _ => rfl

theorem space (h : Writes cs w) : Writes (' ' :: cs) w := by
  have hblank : isBlank ' ' := by decide
  intro rest hrest
  rw [List.cons_append, tokens_cons_of_isBlank hblank, h rest hrest]

theorem append (h : Writes cs w) (h' : Writes cs' w') (hhead : ∀ c ∈ cs'.head?, continuesWord c = false) :
    Writes (cs ++ cs') (w ++ w') := by
  intro rest hrest
  have hmiddle : ∀ c ∈ (cs' ++ rest).head?, continuesWord c = false := by
    cases cs' with
    | nil => exact hrest
    | cons d cs' => exact hhead
  rw [List.append_assoc, h _ hmiddle, h' rest hrest, List.append_assoc]

theorem single (hs : Spells t cs more) (hmore : ∀ c, continuesWord c = false → more c = false) : Writes cs [t] := by
  intro rest hrest
  rw [hs.tokens_eq fun c hc => hmore c (hrest c hc)]
  rfl

theorem cons (hs : Spells t cs more) (hc : more c = false) (h : Writes (c :: cs') w) :
    Writes (cs ++ c :: cs') (t :: w) := by
  intro rest hrest
  have hnext : ∀ d ∈ (c :: cs' ++ rest).head?, more d = false := by simpa using hc
  rw [List.append_assoc, hs.tokens_eq hnext, h rest hrest]
  rfl

theorem symbol {kind : Kind} (hc : Kind.ofSymbol? c = some kind) (h : Writes cs w) :
    Writes (c :: cs) (⟨kind, .singleton c⟩ :: w) := by
  intro rest hrest
  have hs : Spells ⟨kind, .singleton c⟩ [c] fun _ => false := .symbol hc
  have hread : tokens ([c] ++ (cs ++ rest)) = ⟨kind, .singleton c⟩ :: tokens (cs ++ rest) := hs.tokens_eq (by simp)
  rw [h rest hrest] at hread
  exact hread

theorem append_symbol {kind : Kind} (h : Writes cs w) (hc : Kind.ofSymbol? c = some kind) (h' : Writes cs' w') :
    Writes (cs ++ c :: cs') (w ++ ⟨kind, .singleton c⟩ :: w') := by
  refine h.append (h'.symbol hc) fun d hd => ?_
  obtain rfl := Option.some.inj hd
  exact continuesWord_eq_false_of_mem_marks (Kind.mem_marks_of_ofSymbol? hc)

theorem append_space (h : Writes cs w) (h' : Writes cs' w') : Writes (cs ++ ' ' :: cs') (w ++ w') := by
  refine h.append h'.space fun d hd => ?_
  obtain rfl := Option.some.inj hd
  decide

end Writes

theorem isDigit_of_continuesWord_eq_false {c : Char} (h : continuesWord c = false) : isDigit c = false := by
  simp only [continuesWord, Bool.or_eq_false_iff] at h
  exact h.2

theorem spells_word {x : String} (hx : IsWord x.toList) : Spells ⟨Kind.ofWord x, x⟩ x.toList continuesWord := by
  cases hcs : x.toList with
  | nil => simp [hcs, IsWord] at hx
  | cons c cs =>
    rw [hcs] at hx
    have hlist : String.ofList (c :: cs) = x := by rw [← hcs, String.ofList_toList]
    have hs := Spells.word hx.1 hx.2
    rwa [hlist] at hs

theorem writes_name {x : String} (hx : IsName x) : Writes x.toList [⟨.identifier, x⟩] :=
  .single (hx.2 ▸ spells_word hx.1) fun _ h => h

theorem isWord_of_mem_keywords {word : String} {kind : Kind} (h : (word, kind) ∈ Kind.keywords) :
    IsWord word.toList ∧ Kind.ofWord word = kind := by
  have hkeywords : ∀ entry ∈ Kind.keywords, IsWord entry.1.toList ∧ Kind.ofWord entry.1 = entry.2 := by decide
  exact hkeywords (word, kind) h

theorem spells_keyword {word : String} {kind : Kind} (h : (word, kind) ∈ Kind.keywords) :
    Spells ⟨kind, word⟩ word.toList continuesWord := by
  obtain ⟨hword, hkind⟩ := isWord_of_mem_keywords h
  have hs := spells_word hword
  rwa [hkind] at hs

theorem Writes.keyword {word : String} {kind : Kind} {cs : List Char} {w : List Token}
    (hword : (word, kind) ∈ Kind.keywords) (h : Writes cs w) :
    Writes (word.toList ++ ' ' :: cs) (⟨kind, word⟩ :: w) :=
  .cons (spells_keyword hword) (by decide) h.space

theorem writes_string {x : String} (hx : '"' ∉ x.toList) : Writes ('"' :: (x.toList ++ ['"'])) [⟨.string, x⟩] := by
  have hs := Spells.string hx
  rw [String.ofList_toList] at hs
  exact .single hs fun _ _ => rfl

theorem digitValue?_of_isDigit {c : Char} (h : c.isDigit) : digitValue? c = some (c.toNat - '0'.toNat) := by
  have hfirst : ¬ c.toNat < 48 := by
    simp only [Char.isDigit, Bool.and_eq_true, decide_eq_true_eq] at h
    exact Nat.not_lt.mpr h.1
  have hlast : c.toNat ≤ 57 := by
    simp only [Char.isDigit, Bool.and_eq_true, decide_eq_true_eq] at h
    exact h.2
  have hvalue : (c.toNat - 48) % 10 = c.toNat - 48 := Nat.mod_eq_of_lt (by omega)
  simp [digitValue?, decimalDigits, Ranges.offset?, hfirst, hlast, hvalue]

/-- The digits of ASCII have the values that they are known for. -/
theorem decimalValue?_of_isDigit {cs : List Char} (h : ∀ c ∈ cs, c.isDigit) :
    decimalValue? cs = some (Nat.ofDigitChars 10 cs 0) := by
  suffices hfold : ∀ total, cs.foldlM (fun total c => (digitValue? c).map (10 * total + ·)) total =
      some (Nat.ofDigitChars 10 cs total) from hfold 0
  induction cs with
  | nil => exact fun _ => rfl
  | cons c cs ih =>
    intro total
    have hc := digitValue?_of_isDigit (h c List.mem_cons_self)
    simp only [List.foldlM_cons, hc, Option.map_some, Option.bind_eq_bind, Option.bind_some]
    exact ih (fun d hd => h d (List.mem_cons_of_mem c hd)) _

theorem isDigit_of_mem_toDigits {n : Nat} {c : Char} (h : c ∈ Nat.toDigits 10 n) : c.isDigit :=
  Nat.isDigit_of_mem_toDigits (by decide) (by decide) h

theorem decimalValue?_toDigits (n : Nat) : decimalValue? (Nat.toDigits 10 n) = some n := by
  rw [decimalValue?_of_isDigit fun _ => isDigit_of_mem_toDigits, Nat.ofDigitChars_toDigits (by decide) (by decide)]

theorem isDigit_of_ascii {c : Char} (h : c.isDigit) : isDigit c := by
  have hdecimal : isDecimal c := by
    rw [← digitValue?_isSome, digitValue?_of_isDigit h]
    rfl
  simp [isDigit, hdecimal]

theorem writes_int (n : Nat) : Writes (Nat.toDigits 10 n) [⟨.int, n.repr⟩] := by
  have hdigits : ∀ c ∈ Nat.toDigits 10 n, isDigit c := fun c hc => isDigit_of_ascii (isDigit_of_mem_toDigits hc)
  obtain ⟨c, cs, hcs⟩ := List.exists_cons_of_ne_nil (Nat.toDigits_ne_nil (n := n) (b := 10))
  rw [Nat.repr_eq_ofList_toDigits, hcs]
  rw [hcs] at hdigits
  exact .single (.int (hdigits c List.mem_cons_self) fun d hd => hdigits d (List.mem_cons_of_mem c hd))
    fun _ => isDigit_of_continuesWord_eq_false

end Token
end Scriptlet
