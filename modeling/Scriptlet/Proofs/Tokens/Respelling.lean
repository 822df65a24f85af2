import Scriptlet.Proofs.Tokens.Partition

/-! Scanning a text that spells tokens out.  Blanks between the spellings keep each token from going on, and blanks around
them are trimmed off without reaching into the first or the last spelling. -/
namespace Scriptlet
namespace Token
open Text

/-- A token that a blank ends, and the characters that write it. -/
inductive Closed : Token → List Char → Prop
  | spelled {t cs more} (h : Spells t cs more) : Closed t cs
  | stray {c} (h : IsStray c) : Closed ⟨.illegal, .singleton c⟩ [c]

theorem second_mem_marks {c : Char} {e : Kind.Extension} (h : Kind.extension? c = some e) : e.second ∈ marks := by
  have hextensions : ∀ e ∈ Kind.extensions, e.second ∈ marks := by decide
  exact hextensions e (Kind.mem_extensions_of_extension? h)

theorem continuesWord_eq_false_of_isBlank {c : Char} (h : isBlank c) : continuesWord c = false := by
  have hstart : startsWord c = false := by
    refine Bool.eq_false_iff.mpr fun hword => ?_
    simp [isBlank_eq_false_of_startsWord hword] at h
  simp [continuesWord, hstart, isDigit_eq_false_of_isBlank h]

theorem Spells.more_of_isBlank {t : Token} {cs : List Char} {more : Char → Bool} (h : Spells t cs more) {d : Char}
    (hd : isBlank d) : more d = false := by
  cases h with
  | symbol _ | both _ | string _ => rfl
  | alone h =>
    refine decide_eq_false ?_
    rintro rfl
    simp [(classes_of_mem_marks (second_mem_marks h)).1] at hd
  | int _ _ => exact isDigit_eq_false_of_isBlank hd
  | word _ _ => exact continuesWord_eq_false_of_isBlank hd

theorem isBlank_eq_false_of_continuesWord {c : Char} (h : continuesWord c) : isBlank c = false := by
  refine Bool.eq_false_iff.mpr fun hblank => ?_
  simp [continuesWord_eq_false_of_isBlank hblank] at h

/-- Only inside of a string a spelling has blanks. -/
theorem Spells.getLast {t : Token} {cs : List Char} {more : Char → Bool} (h : Spells t cs more) :
    ∀ c ∈ cs.getLast?, isBlank c = false := by
  intro c hc
  cases h with
  | symbol h =>
    obtain rfl : _ = c := by simpa using hc
    exact (classes_of_mem_marks (Kind.mem_marks_of_ofSymbol? h)).1
  | alone h =>
    obtain rfl : _ = c := by simpa using hc
    exact (classes_of_mem_marks (Kind.mem_marks_of_extension? h)).1
  | both h =>
    obtain rfl : _ = c := by simpa using hc
    exact (classes_of_mem_marks (second_mem_marks h)).1
  | string _ =>
    obtain rfl : '"' = c := by simpa [List.getLast?_cons] using hc
    decide
  | int hd hds =>
    rcases List.mem_cons.mp (List.mem_of_getLast? hc) with rfl | hmem
    · exact isBlank_eq_false_of_isDigit hd
    · exact isBlank_eq_false_of_isDigit (hds c hmem)
  | word hd hds =>
    rcases List.mem_cons.mp (List.mem_of_getLast? hc) with rfl | hmem
    · exact isBlank_eq_false_of_startsWord hd
    · exact isBlank_eq_false_of_continuesWord (hds c hmem)

namespace Closed
variable {t : Token} {cs rest : List Char}

theorem stands (h : Closed t cs) (hrest : ∀ d ∈ rest.head?, isBlank d) : Stands t cs rest := by
  cases h with
  | spelled h => exact .spelled h fun d hd => h.more_of_isBlank (hrest d hd)
  | stray h => exact .stray h

theorem exists_cons (h : Closed t cs) : ∃ c tail, cs = c :: tail ∧ isBlank c = false := by
  cases h with
  | spelled h => exact h.exists_cons
  | stray h => exact ⟨_, _, rfl, h.isBlank⟩

theorem getLast (h : Closed t cs) : ∀ c ∈ cs.getLast?, isBlank c = false := by
  cases h with
  | spelled h => exact h.getLast
  | stray h =>
    intro c hc
    obtain rfl : _ = c := by simpa using hc
    exact h.isBlank

end Closed

structure Spelled where
  gap : List Char
  token : Token
  spelling : List Char
  blank : ∀ c ∈ gap, isBlank c
  closed : Closed token spelling

namespace Spelled
variable {items : List Spelled} {after : List Char}

def chars (item : Spelled) : List Char := item.gap ++ item.spelling

def atStart (item : Spelled) : Spelled := { item with gap := [], blank := by simp }

theorem head_of_gaps (hgaps : ∀ item ∈ items, item.gap ≠ []) (hafter : ∀ c ∈ after, isBlank c) :
    ∀ d ∈ (items.flatMap chars ++ after).head?, isBlank d := by
  intro d hd
  cases items with
  | nil => exact hafter d (List.mem_of_mem_head? hd)
  | cons item items =>
    obtain ⟨c, gap, hgap⟩ := List.exists_cons_of_ne_nil (hgaps item List.mem_cons_self)
    obtain rfl : c = d := by simpa [chars, hgap] using hd
    exact item.blank c (by simp [hgap])

theorem tokens_eq (hbetween : ∀ item ∈ items.tail, item.gap ≠ []) (hafter : ∀ c ∈ after, isBlank c) :
    tokens (items.flatMap chars ++ after) = items.map (·.token) := by
  induction items with
  | nil =>
    have hnone : first? (after ++ []) = none := first?_append_of_blank hafter []
    rw [List.append_nil] at hnone
    exact tokens_of_first?_eq_none hnone
  | cons item items ih =>
    have hrest : ∀ d ∈ (items.flatMap chars ++ after).head?, isBlank d := head_of_gaps hbetween hafter
    have hstands := item.closed.stands hrest
    have hothers := ih fun other hother => hbetween other (List.mem_of_mem_tail hother)
    rw [List.flatMap_cons, chars, List.append_assoc, List.append_assoc, tokens_append_of_blank item.blank,
      tokens_of_first?_eq_some hstands.first?_eq, hothers, List.map_cons]

theorem getLast_chars (item : Spelled) : ∀ c ∈ item.chars.getLast?, isBlank c = false := by
  obtain ⟨d, tail, hcons, -⟩ := item.closed.exists_cons
  intro c hc
  refine item.closed.getLast c ?_
  rw [chars, List.getLast?_append] at hc
  simpa [hcons, List.getLast?_cons] using hc

theorem getLast_flatMap : ∀ c ∈ (items.flatMap chars).getLast?, isBlank c = false := by
  induction items with
  | nil => simp
  | cons item items ih =>
    intro c hc
    rw [List.flatMap_cons, List.getLast?_append] at hc
    rcases Option.or_eq_some_iff.mp hc with hothers | ⟨-, hitem⟩
    · exact ih c hothers
    · exact item.getLast_chars c hitem

theorem head_atStart (item : Spelled) (items : List Spelled) :
    ∀ c ∈ ((item.atStart :: items).flatMap chars).head?, isBlank c = false := by
  obtain ⟨c, tail, hcons, hblank⟩ := item.closed.exists_cons
  simpa [chars, atStart, hcons] using hblank

/-- Trimming what is written for tokens leaves what is written for the same tokens with nothing around it. -/
theorem exists_trim_eq (items : List Spelled) (hafter : ∀ c ∈ after, isBlank c) :
    ∃ items' : List Spelled, trim (items.flatMap chars ++ after) = items'.flatMap chars ∧
      items'.map (·.token) = items.map (·.token) ∧ items'.tail = items.tail := by
  cases items with
  | nil =>
    have htrim : trim ([] ++ ([] ++ after)) = [] := trim_append (by simp) hafter (by simp) (by simp)
    exact ⟨[], htrim, rfl, rfl⟩
  | cons item items =>
    refine ⟨item.atStart :: items, ?_, rfl, rfl⟩
    have htrim := trim_append item.blank hafter (head_atStart item items) getLast_flatMap
    simpa [chars, atStart] using htrim

theorem tokens_trim (items : List Spelled) (hbetween : ∀ item ∈ items.tail, item.gap ≠ [])
    (hafter : ∀ c ∈ after, isBlank c) : tokens (trim (items.flatMap chars ++ after)) = items.map (·.token) := by
  obtain ⟨items', htrim, htokens, htail⟩ := exists_trim_eq items hafter
  have hnil : ∀ c ∈ ([] : List Char), isBlank c := by simp
  have hread := tokens_eq (htail ▸ hbetween) hnil
  rw [List.append_nil, htokens] at hread
  rw [htrim, hread]

/-- Tokens that are spelled out with blanks between them, and any blanks around them, are scanned into these tokens. -/
theorem ofSource_spelled (items : List Spelled) (after : List Char) (hbetween : ∀ item ∈ items.tail, item.gap ≠ [])
    (hafter : ∀ c ∈ after, isBlank c) : ofSource (items.flatMap chars ++ after) = items.map (·.token) := by
  rw [ofSource, tokens_trim items hbetween hafter]

def minusesApart : List Spelled :=
  have hminus : Closed ⟨.minus, .singleton '-'⟩ ['-'] :=
    .spelled (.alone (c := '-') (e := ⟨.minus, '-', .decrement⟩) rfl)
  [⟨['\n'], ⟨.string, .ofList [' ', 'b', ' ']⟩, ['"', ' ', 'b', ' ', '"'], List.all_eq_true.mp rfl,
      .spelled (.string (by decide))⟩,
   ⟨[' '], ⟨.minus, .singleton '-'⟩, ['-'], List.all_eq_true.mp rfl, hminus⟩,
   ⟨[' ', '\t'], ⟨.minus, .singleton '-'⟩, ['-'], List.all_eq_true.mp rfl, hminus⟩,
   ⟨[' '], ⟨.illegal, .singleton '#'⟩, ['#'], List.all_eq_true.mp rfl,
      .stray ⟨by decide, by decide, by decide, by decide⟩⟩]

theorem ofSource_minusesApart :
    (∀ item ∈ minusesApart.tail, item.gap ≠ []) ∧ (∀ c ∈ [' '], isBlank c) ∧
      ofSource "\n\" b \" - \t- # ".toList =
        [⟨.string, " b "⟩, ⟨.minus, "-"⟩, ⟨.minus, "-"⟩, ⟨.illegal, "#"⟩] := by
  have hbetween : ∀ item ∈ minusesApart.tail, item.gap ≠ [] := by simp [minusesApart]
  have hafter : ∀ c ∈ [' '], isBlank c := List.forall_mem_singleton.mpr rfl
  exact ⟨hbetween, hafter, ofSource_spelled minusesApart [' '] hbetween hafter⟩

end Spelled

theorem exists_source {ts : List Token} (h : ∀ t ∈ ts, ∃ cs, Closed t cs) : ∃ source, ofSource source = ts := by
  have hitems : ∃ items : List Spelled, items.map (·.token) = ts ∧ ∀ item ∈ items, item.gap ≠ [] := by
    induction ts with
    | nil => exact ⟨[], rfl, by simp⟩
    | cons t ts ih =>
      obtain ⟨cs, hclosed⟩ := h t List.mem_cons_self
      obtain ⟨items, rfl, hgaps⟩ := ih fun t ht => h t (List.mem_cons_of_mem _ ht)
      have hblank : ∀ c ∈ [' '], isBlank c := List.forall_mem_singleton.mpr rfl
      exact ⟨⟨[' '], t, cs, hblank, hclosed⟩ :: items, rfl, by simpa using hgaps⟩
  obtain ⟨items, rfl, hgaps⟩ := hitems
  have hafter : ∀ c ∈ ([] : List Char), isBlank c := by simp
  exact ⟨_, Spelled.tokens_trim items (fun item hitem => hgaps item (List.mem_of_mem_tail hitem)) hafter⟩

end Token
end Scriptlet
