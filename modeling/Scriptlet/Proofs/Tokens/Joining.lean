import Scriptlet.Proofs.Session.Brackets
import Scriptlet.Proofs.Tokens.Respelling

/-! Scanning texts one after another.  Blanks between two texts end the last token of the first, unless that is a string
left open, so together the texts have the tokens of both. -/
namespace Scriptlet

namespace Text
variable {cs gap : List Char}

theorem trim_trim (cs : List Char) : trim (trim cs) = trim cs := trim_eq_self (head?_trim cs) (getLast?_trimEnd _)

theorem trim_blank_append (hgap : ∀ c ∈ gap, isBlank c) (cs : List Char) : trim (gap ++ cs) = trim cs := by
  rw [trim, trimStart, List.dropWhile_append_of_pos hgap, ← trimStart, ← trim]

theorem trim_append_blank (hgap : ∀ c ∈ gap, isBlank c) (cs : List Char) : trim (cs ++ gap) = trim cs := by
  obtain ⟨before, after, hcs, hbefore, hafter⟩ := exists_trim cs
  have hend : ∀ c ∈ after ++ gap, isBlank c := fun c hc => (List.mem_append.mp hc).elim (hafter c) (hgap c)
  calc trim (cs ++ gap) = trim (before ++ (trim cs ++ (after ++ gap))) := by
        rw [← List.append_assoc (trim cs), ← List.append_assoc before, ← hcs]
    _ = trim cs := trim_append hbefore hend (head?_trim cs) (getLast?_trimEnd _)

theorem isBlank_of_trim_eq_nil (h : trim cs = []) : ∀ c ∈ cs, isBlank c := by
  obtain ⟨before, after, hcs, hbefore, hafter⟩ := exists_trim cs
  rw [h, List.nil_append] at hcs
  rw [hcs]
  exact fun c hc => (List.mem_append.mp hc).elim (hbefore c) (hafter c)

theorem exists_trim_append {rest : List Char} (hcs : trim cs ≠ []) (hrest : trim rest ≠ []) (hgap : gap ≠ [])
    (hblank : ∀ c ∈ gap, isBlank c) :
    ∃ between, between ≠ [] ∧ (∀ c ∈ between, isBlank c) ∧
      trim (cs ++ (gap ++ rest)) = trim cs ++ (between ++ trim rest) := by
  obtain ⟨before, after, hcs', hbefore, hafter⟩ := exists_trim cs
  obtain ⟨before', after', hrest', hbefore', hafter'⟩ := exists_trim rest
  refine ⟨after ++ (gap ++ before'), by simp [hgap], ?_, ?_⟩
  · intro c hc
    rcases List.mem_append.mp hc with hc | hc
    · exact hafter c hc
    · exact (List.mem_append.mp hc).elim (hblank c) (hbefore' c)
  · have hwhole : cs ++ (gap ++ rest) =
        before ++ ((trim cs ++ ((after ++ (gap ++ before')) ++ trim rest)) ++ after') := by
      calc cs ++ (gap ++ rest)
          = (before ++ (trim cs ++ after)) ++ (gap ++ (before' ++ (trim rest ++ after'))) := by rw [← hcs', ← hrest']
        _ = before ++ ((trim cs ++ ((after ++ (gap ++ before')) ++ trim rest)) ++ after') := by
          simp only [List.append_assoc]
    rw [hwhole]
    refine trim_append hbefore hafter' ?_ ?_
    · rw [List.head?_append, Option.or_of_isSome (List.isSome_head?.mpr hcs)]
      exact head?_trim cs
    · rw [List.getLast?_append, List.getLast?_append, Option.or_of_isSome (List.getLast?_isSome.mpr hrest),
        Option.or_of_isSome (List.getLast?_isSome.mpr hrest)]
      exact getLast?_trimEnd _

end Text

namespace Token
open SourceUnit Text
variable {t : Token} {spelling gap rest after : List Char}

/-- A token stays as it is when a blank is the first thing written after its text, unless it is a string left open. -/
theorem Stands.append (h : Stands t spelling rest) (hclosed : endsInside false spelling = false)
    (hafter : ∀ d ∈ after.head?, isBlank d) : Stands t spelling (rest ++ after) := by
  cases h with
  | spelled h hrest =>
    refine .spelled h fun d hd => ?_
    cases rest with
    | nil => exact h.more_of_isBlank (hafter d hd)
    | cons c rest => exact hrest d hd
  | stray h => exact .stray h
  | @openString cs h =>
    have hopen : endsInside true cs = true := endsInside_of_not_mem h true
    exact absurd (hopen.symm.trans hclosed) (by decide)

theorem Stands.endsInside_append (h : Stands t spelling rest) (hclosed : endsInside false (spelling ++ rest) = false) :
    endsInside false spelling = false ∧ endsInside false rest = false := by
  rw [SourceUnit.endsInside_append] at hclosed
  rcases h.closes with hspelling | rfl
  · exact ⟨hspelling, by rwa [hspelling] at hclosed⟩
  · exact ⟨hclosed, rfl⟩

theorem endsInside_of_legal {cs : List Char} (h : ∀ t ∈ tokens cs, t.kind ≠ .illegal) : endsInside false cs = false := by
  induction cs using steps.induct with
  | case1 cs hnone => exact endsInside_of_blank (isBlank_of_first?_eq_none hnone) false
  | case2 cs t others hfirst ih =>
    rw [tokens_of_first?_eq_some hfirst] at h
    obtain ⟨before, spelling, rfl, hbefore, hstands⟩ := stands_of_first? hfirst
    have hspelling : endsInside false spelling = false := by
      cases hstands with
      | spelled h _ => exact h.closes
      | stray _ | openString _ => exact absurd rfl (h _ List.mem_cons_self)
    rw [endsInside_append, endsInside_append, endsInside_of_blank hbefore, hspelling]
    exact ih fun t ht => h t (List.mem_cons_of_mem _ ht)

theorem endsInside_trim (cs : List Char) (inside : Bool) : endsInside inside (trim cs) = endsInside inside cs := by
  obtain ⟨before, after, hcs, hbefore, hafter⟩ := exists_trim cs
  calc endsInside inside (trim cs)
      = endsInside inside (before ++ (trim cs ++ after)) := by
        rw [endsInside_append, endsInside_append, endsInside_of_blank hbefore, endsInside_of_blank hafter]
    _ = endsInside inside cs := by rw [← hcs]

theorem tokens_append {cs : List Char} (hclosed : endsInside false cs = false) (hgap : gap ≠ [])
    (hblank : ∀ c ∈ gap, isBlank c) (rest : List Char) : tokens (cs ++ (gap ++ rest)) = tokens cs ++ tokens rest := by
  induction cs using steps.induct with
  | case1 cs hnone =>
    rw [tokens_append_of_blank (isBlank_of_first?_eq_none hnone), tokens_append_of_blank hblank,
      tokens_of_first?_eq_none hnone, List.nil_append]
  | case2 cs t others hfirst ih =>
    obtain ⟨before, spelling, rfl, hbefore, hstands⟩ := stands_of_first? hfirst
    rw [endsInside_append, endsInside_of_blank hbefore] at hclosed
    obtain ⟨hspelling, hothers⟩ := hstands.endsInside_append hclosed
    have hhead : ∀ d ∈ (gap ++ rest).head?, isBlank d := by
      obtain ⟨c, gap, rfl⟩ := List.exists_cons_of_ne_nil hgap
      intro d hd
      obtain rfl : c = d := Option.some.inj hd
      exact hblank c List.mem_cons_self
    have hstands' := hstands.append hspelling hhead
    rw [List.append_assoc, List.append_assoc, tokens_append_of_blank hbefore,
      tokens_of_first?_eq_some hstands'.first?_eq, ih hothers, tokens_of_first?_eq_some hfirst, List.cons_append]

theorem ofSource_of_blank {cs : List Char} (h : trim cs = []) : ofSource cs = [] := by
  rw [ofSource, h]
  exact tokens_of_first?_eq_none rfl

/-- Texts with blanks between them have the tokens of the first and then those of the second, if the first leaves no
string open. -/
theorem ofSource_append_of_closed {source : List Char} (hclosed : endsInside false source = false) (hgap : gap ≠ [])
    (hblank : ∀ c ∈ gap, isBlank c) (rest : List Char) :
    ofSource (source ++ (gap ++ rest)) = ofSource source ++ ofSource rest := by
  by_cases hsource : trim source = []
  · rw [ofSource_of_blank hsource, List.nil_append, ofSource, trim_blank_append (isBlank_of_trim_eq_nil hsource),
      trim_blank_append hblank, ofSource]
  · by_cases hrest : trim rest = []
    · have hend : ∀ c ∈ gap ++ rest, isBlank c := fun c hc =>
        (List.mem_append.mp hc).elim (hblank c) (isBlank_of_trim_eq_nil hrest c)
      rw [ofSource_of_blank hrest, List.append_nil, ofSource, trim_append_blank hend, ofSource]
    · obtain ⟨between, hne, hbetween, htrim⟩ := exists_trim_append hsource hrest hgap hblank
      rw [ofSource, htrim]
      exact tokens_append (by rwa [endsInside_trim]) hne hbetween _

/-- Among the tokens of the first text no string is left open if all of them are legal. -/
theorem ofSource_append {source : List Char} (hlegal : ∀ t ∈ ofSource source, t.kind ≠ .illegal) (hgap : gap ≠ [])
    (hblank : ∀ c ∈ gap, isBlank c) (rest : List Char) :
    ofSource (source ++ (gap ++ rest)) = ofSource source ++ ofSource rest :=
  ofSource_append_of_closed (by rw [← endsInside_trim, endsInside_of_legal hlegal]) hgap hblank rest

end Token
end Scriptlet
