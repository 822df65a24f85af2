import Scriptlet.Proofs.Tokens.Spelling

/-! Scanning cuts a text into pieces.  A text without blanks around it is blanks and spelled tokens by turns and ends with
a token, so as long as characters are left there is another token, and every token can be told where it ends.  Such a cut
is the only one. -/
namespace Scriptlet

namespace Text

theorem getLast?_trimEnd (cs : List Char) : ∀ c ∈ (trimEnd cs).getLast?, isBlank c = false := by
  intro c hc
  rw [trimEnd, List.getLast?_reverse] at hc
  exact Token.dropWhile_head isBlank cs.reverse c hc

theorem exists_trimStart_eq (cs : List Char) : ∃ after, trimStart cs = trim cs ++ after ∧ ∀ c ∈ after, isBlank c := by
  refine ⟨((trimStart cs).reverse.takeWhile isBlank).reverse, ?_, ?_⟩
  · rw [trim, trimEnd, ← List.reverse_append, List.takeWhile_append_dropWhile, List.reverse_reverse]
  · exact fun c hc => List.mem_takeWhile_imp (List.mem_reverse.mp hc)

theorem head?_trim (cs : List Char) : ∀ c ∈ (trim cs).head?, isBlank c = false := by
  intro c hc
  obtain ⟨after, htrim, -⟩ := exists_trimStart_eq cs
  refine Token.dropWhile_head isBlank cs c ?_
  rw [← trimStart, htrim, List.head?_append, Option.mem_def.mp hc]
  rfl

theorem exists_trim (cs : List Char) : ∃ before after, cs = before ++ (trim cs ++ after) ∧
    (∀ c ∈ before, isBlank c) ∧ ∀ c ∈ after, isBlank c := by
  obtain ⟨after, htrim, hafter⟩ := exists_trimStart_eq cs
  refine ⟨cs.takeWhile isBlank, after, ?_, fun c hc => List.mem_takeWhile_imp hc, hafter⟩
  rw [← htrim, trimStart, List.takeWhile_append_dropWhile]

theorem trim_append {before body after : List Char} (hbefore : ∀ c ∈ before, isBlank c)
    (hafter : ∀ c ∈ after, isBlank c) (hhead : ∀ c ∈ body.head?, isBlank c = false)
    (hlast : ∀ c ∈ body.getLast?, isBlank c = false) : trim (before ++ (body ++ after)) = body := by
  have dropWhile_eq {cs : List Char} (h : ∀ c ∈ cs.head?, isBlank c = false) : cs.dropWhile isBlank = cs := by
    cases cs with
    | nil => rfl
    | cons c cs => exact List.dropWhile_cons_of_neg (by simp [h c rfl])
  rw [trim, trimStart, List.dropWhile_append_of_pos hbefore, trimEnd]
  cases body with
  | nil =>
    have hnil : after.dropWhile isBlank = [] := List.dropWhile_eq_nil_iff.mpr hafter
    rw [List.nil_append, hnil]
    rfl
  | cons c body =>
    have hreverse : ∀ d ∈ after.reverse, isBlank d := fun d hd => hafter d (List.mem_reverse.mp hd)
    have hstart : (c :: body ++ after).dropWhile isBlank = c :: body ++ after := dropWhile_eq hhead
    rw [hstart, List.reverse_append, List.dropWhile_append_of_pos hreverse,
      dropWhile_eq (by simpa only [List.head?_reverse] using hlast), List.reverse_reverse]

theorem trim_eq_self {cs : List Char} (hhead : ∀ c ∈ cs.head?, isBlank c = false)
    (hlast : ∀ c ∈ cs.getLast?, isBlank c = false) : trim cs = cs := by
  have hnil : ∀ c ∈ ([] : List Char), isBlank c := by simp
  simpa using trim_append hnil hnil hhead hlast

theorem trim_enclosed {c d : Char} (hc : isBlank c = false) (hd : isBlank d = false) (cs : List Char) :
    trim (c :: (cs ++ [d])) = c :: (cs ++ [d]) := by
  have hlast : (c :: (cs ++ [d])).getLast? = some d := by rw [← List.cons_append, List.getLast?_concat]
  exact trim_eq_self (by simpa using hc) (by simpa [hlast] using hd)

end Text

namespace Token
open Text

/-- One who asks for tokens of a text as long as characters are left at the place that he has reached is never refused.
He gets these tokens, each with the place where it ends, and comes to the end of the text. -/
inductive Taken (text : List Char) : (place : Nat) → (found : List (Token × Nat)) → Prop
  | done : Taken text text.length []
  | next {place last t found} (hleft : place < text.length)
      (hfirst : first? (text.drop place) = some (t, text.drop last)) (hlast : last ≤ text.length)
      (hfound : Taken text last found) : Taken text place ((t, last) :: found)

/-- A text that starts at a place of a longer one is cut into blanks and spelled tokens by turns.  The blanks before a
token are as many as there are, and `found` has each token with the place where its spelling ends. -/
inductive Partition : (place : Nat) → (text : List Char) → (found : List (Token × Nat)) → Prop
  | nil {place} : Partition place [] []
  | cons {place gap spelling rest t found} (hgap : ∀ c ∈ gap, isBlank c)
      (hhead : ∃ c ∈ spelling.head?, isBlank c = false) (hstands : Stands t spelling rest)
      (hrest : Partition (place + gap.length + spelling.length) rest found) :
      Partition place (gap ++ (spelling ++ rest)) ((t, place + gap.length + spelling.length) :: found)

theorem Stands.head (h : Stands t spelling rest) : ∃ c ∈ spelling.head?, isBlank c = false := by
  obtain ⟨c, tail, rfl, hblank⟩ := h.exists_cons
  exact ⟨c, rfl, hblank⟩

theorem isBlank_of_first?_eq_none {cs : List Char} (h : first? cs = none) : ∀ c ∈ cs, isBlank c := by
  unfold first? at h
  split at h
  · next hnil => exact List.dropWhile_eq_nil_iff.mp hnil
  · cases h

/-- Where characters are left and the last of them is no blank, there is another token. -/
theorem exists_first? {cs : List Char} (hcs : cs ≠ []) (hlast : ∀ c ∈ cs.getLast?, isBlank c = false) :
    ∃ t rest, first? cs = some (t, rest) := by
  cases hfirst : first? cs with
  | some pair => exact ⟨pair.1, pair.2, rfl⟩
  | none =>
    have hblank := isBlank_of_first?_eq_none hfirst
    have hmem := List.getLast_mem hcs
    have hfalse := hlast _ (List.getLast?_eq_some_getLast hcs)
    rw [hblank _ hmem] at hfalse
    cases hfalse

def foundFrom (place : Nat) (cs : List Char) : List (Token × Nat) :=
  (steps cs).map fun (t, rest) => (t, place + cs.length - rest.length)

theorem foundFrom_nil (place : Nat) : foundFrom place [] = [] := by
  rw [foundFrom, steps_of_first?_eq_none rfl, List.map_nil]

theorem foundFrom_cons {gap spelling rest : List Char} {t : Token}
    (hfirst : first? (gap ++ (spelling ++ rest)) = some (t, rest)) (place : Nat) :
    foundFrom place (gap ++ (spelling ++ rest)) =
      (t, place + gap.length + spelling.length) :: foundFrom (place + gap.length + spelling.length) rest := by
  have hlength : place + (gap ++ (spelling ++ rest)).length =
      place + gap.length + spelling.length + rest.length := by
    simp only [List.length_append]
    omega
  simp only [foundFrom, steps_of_first?_eq_some hfirst, List.map_cons, hlength, Nat.add_sub_cancel]

namespace Partition
variable {place : Nat} {text cs : List Char} {found : List (Token × Nat)}

theorem eq_foundFrom (h : Partition place cs found) : found = foundFrom place cs := by
  induction h with
  | nil => rw [foundFrom_nil]
  | cons hgap _ hstands _ ih =>
    rw [foundFrom_cons ((first?_append_of_blank hgap _).trans hstands.first?_eq), ← ih]

theorem of_foundFrom {cs : List Char} (hlast : ∀ c ∈ cs.getLast?, isBlank c = false) (place : Nat) :
    Partition place cs (foundFrom place cs) := by
  by_cases hcs : cs = []
  · subst hcs
    rw [foundFrom_nil]
    exact .nil
  · obtain ⟨t, rest, hfirst⟩ := exists_first? hcs hlast
    have hshorter := length_first?_lt hfirst
    obtain ⟨gap, spelling, rfl, hgap, hstands⟩ := stands_of_first? hfirst
    have hlast' : ∀ c ∈ rest.getLast?, isBlank c = false := by
      intro c hc
      refine hlast c ?_
      rw [List.getLast?_append, List.getLast?_append, Option.mem_def.mp hc]
      rfl
    rw [foundFrom_cons hfirst]
    exact .cons hgap hstands.head hstands (of_foundFrom hlast' _)
termination_by cs.length

theorem taken (h : Partition place cs found) (hcs : text.drop place = cs) (hplace : place ≤ text.length) :
    Taken text place found := by
  induction h with
  | @nil place =>
    have hlength : text.length = place := Nat.le_antisymm (List.drop_eq_nil_iff.mp hcs) hplace
    exact hlength ▸ .done
  | @cons place gap spelling rest t found hgap _ hstands _ ih =>
    obtain ⟨c, tail, rfl, -⟩ := hstands.exists_cons
    have hrest : text.drop (place + gap.length + (c :: tail).length) = rest := by
      rw [Nat.add_assoc, ← List.drop_drop, hcs, ← List.append_assoc, ← List.length_append, List.drop_left]
    have hlength := congrArg List.length hcs
    simp only [List.length_drop, List.length_append, List.length_cons] at hlength
    have hlast : place + gap.length + (c :: tail).length ≤ text.length := by
      simp only [List.length_cons]
      omega
    refine .next (by omega) ?_ hlast (ih hrest hlast)
    rw [hrest, hcs, first?_append_of_blank hgap, hstands.first?_eq]

end Partition

/-- Tokens can be taken of a text as long as characters are left, and they and the blanks between them make up the whole
text: what is found is the one way to cut it into blanks and spelled tokens. -/
theorem scan_partitions (source : List Char) :
    Taken (scan source).stripped 0 (scan source).found ∧
      (∀ found, Partition 0 (scan source).stripped found ↔ found = (scan source).found) ∧
      (scan source).found.map (·.1) = ofSource source := by
  have hfound : (scan source).found = foundFrom 0 (scan source).stripped := by simp [scan, foundFrom]
  have hpartition : Partition 0 (scan source).stripped (scan source).found := by
    rw [hfound]
    exact .of_foundFrom (getLast?_trimEnd _) 0
  refine ⟨hpartition.taken rfl (Nat.zero_le _), fun found => ⟨fun h => ?_, fun h => h ▸ hpartition⟩, ?_⟩
  · rw [hfound]
    exact h.eq_foundFrom
  · simp [scan, ofSource, tokens]

end Token
end Scriptlet
