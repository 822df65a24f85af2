import Scriptlet.Report

/-! Templates with one field.  What fills the field is taken as it is, with whatever braces it has; so a failure about a
part of a program shows the part word for word. -/
namespace Scriptlet

namespace Text
variable {cs : List Char} {before after : String}

theorem pieces_append (hopening : '\x7b' ∉ cs) (hclosing : '\x7d' ∉ cs) (rest : List Char) :
    pieces .plain (cs ++ rest) = cs.map .letter ++ pieces .plain rest := by
  induction cs with
  | nil => rfl
  | cons c cs ih =>
    simp only [List.mem_cons, not_or] at hopening hclosing
    have hfirst : pieces .plain (c :: (cs ++ rest)) = .letter c :: pieces .plain (cs ++ rest) := by
      simp [pieces, Ne.symm hopening.1, Ne.symm hclosing.1]
    rw [List.cons_append, hfirst, ih hopening.2 hclosing.2, List.map_cons, List.cons_append]

section
variable (args : List String) (expand : Numbering → List Char → Except TemplateError (List Char × Numbering))
  (numbering : Numbering)

theorem fillPieces_letters (cs : List Char) :
    fillPieces args expand numbering (cs.map .letter) = .ok (cs, numbering) := by
  induction cs with
  | nil => rfl
  | cons c cs ih =>
    rw [List.map_cons, fillPieces, ih]
    rfl

theorem fillPieces_letters_append {pieces : List Piece} {filled : List Char} {numbering' : Numbering}
    (h : fillPieces args expand numbering pieces = .ok (filled, numbering')) (cs : List Char) :
    fillPieces args expand numbering (cs.map .letter ++ pieces) = .ok (cs ++ filled, numbering') := by
  induction cs with
  | nil => exact h
  | cons c cs ih =>
    rw [List.map_cons, List.cons_append, fillPieces, ih]
    rfl

end

/-- A field without a name takes the argument as it is. -/
theorem fill_field (hbefore : '\x7b' ∉ before.toList ∧ '\x7d' ∉ before.toList)
    (hafter : '\x7b' ∉ after.toList ∧ '\x7d' ∉ after.toList) (part : String) :
    fill (before ++ "\x7b\x7d" ++ after) [part] = .ok (before ++ part ++ after) := by
  have hend : pieces .plain after.toList = after.toList.map .letter := by
    have hnil : pieces .plain [] = [] := rfl
    simpa [hnil] using pieces_append hafter.1 hafter.2 []
  have hfield : pieces .plain ("\x7b\x7d".toList ++ after.toList) =
      .field ⟨[], none, []⟩ :: pieces .plain after.toList := rfl
  have hpieces : pieces .plain (before ++ "\x7b\x7d" ++ after).toList =
      before.toList.map .letter ++ (.field ⟨[], none, []⟩ :: after.toList.map .letter) := by
    rw [String.toList_append, String.toList_append, List.append_assoc, pieces_append hbefore.1 hbefore.2, hfield, hend]
  have hvalue (expand) : fillField [part] expand .open ⟨[], none, []⟩ = .ok (part.toList, .empty 1) := rfl
  have hfilled (expand) : fillPieces [part] expand .open (.field ⟨[], none, []⟩ :: after.toList.map .letter) =
      .ok (part.toList ++ after.toList, .empty 1) := by
    rw [fillPieces, hvalue]
    simp only [bind, Except.bind, fillPieces_letters]
    rfl
  have hlevels : fillLevels [part] 2 .open (before ++ "\x7b\x7d" ++ after).toList =
      .ok (before.toList ++ (part.toList ++ after.toList), .empty 1) := by
    rw [fillLevels, hpieces]
    exact fillPieces_letters_append _ _ _ (hfilled _) _
  simp only [fill, hlevels, bind, Except.bind]
  rw [← List.append_assoc, ← String.toList_append, ← String.toList_append, String.ofList_toList]
  rfl

end Text

open Text

def Failure.about (style : Style) (before part after : String) (details : List String) : Failure :=
  ⟨before ++ style.strong part ++ after, details, false⟩

theorem Interruption.ofTemplate_eq_about (style : Style) (before part after : String) (details : List String)
    (hbefore : '\x7b' ∉ before.toList ∧ '\x7d' ∉ before.toList)
    (hafter : '\x7b' ∉ after.toList ∧ '\x7d' ∉ after.toList) :
    ofTemplate style (before ++ "\x7b\x7d" ++ after) [part] details =
      .failure (.about style before part after details) := by
  have hfill := fill_field hbefore hafter (style.strong part)
  simp only [ofTemplate, Failure.ofTemplate?, List.isEmpty_cons, Bool.false_eq_true, if_false, List.map_cons,
    List.map_nil, hfill, Failure.about]

end Scriptlet
