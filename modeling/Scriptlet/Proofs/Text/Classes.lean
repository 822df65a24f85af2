import Scriptlet.Text.Blank
import Scriptlet.Text.Digit
import Scriptlet.Text.Letter

/-! Classes of characters.  A table of intervals holds a character if one of its intervals does, so tables whose
intervals do not meet share no character: no letter is a digit, and no blank is either. -/
namespace Scriptlet.Text

namespace Ranges
variable {as bs : Ranges} {n : Nat} {c : Char}

def misses : Ranges → (first last : Nat) → Bool
  | [], _, _ => true
  | a :: rest, first, last => last.blt a.1 || (a.2.blt first && misses rest first last)

def apart (as bs : Ranges) : Bool := as.all fun a => bs.misses a.1 a.2

theorem exists_mem_of_containsCode (h : as.containsCode n) : ∃ a ∈ as, a.1 ≤ n ∧ n ≤ a.2 := by
  induction as with
  | nil => cases h
  | cons a rest ih =>
    simp only [containsCode, Bool.and_eq_true, Bool.or_eq_true, decide_eq_true_eq] at h
    obtain ⟨hfirst, hlast | hrest⟩ := h
    · exact ⟨a, List.mem_cons_self, hfirst, hlast⟩
    · obtain ⟨b, hb, hn⟩ := ih hrest
      exact ⟨b, List.mem_cons_of_mem a hb, hn⟩

theorem containsCode_eq_false_of_misses {first last : Nat} (h : as.misses first last) (hfirst : first ≤ n)
    (hlast : n ≤ last) : as.containsCode n = false := by
  induction as with
  | nil => rfl
  | cons a rest ih =>
    simp only [misses, Bool.or_eq_true, Bool.and_eq_true, Nat.blt_eq] at h
    rcases h with habove | ⟨hbelow, hrest⟩
    · have hstop : ¬ a.1 ≤ n := by omega
      simp [containsCode, hstop]
    · have hpast : ¬ n ≤ a.2 := by omega
      simp [containsCode, hpast, ih hrest]

theorem contains_eq_false_of_apart (as bs : Ranges) (hapart : as.apart bs) (h : as.contains c) : bs.contains c = false := by
  obtain ⟨a, ha, hfirst, hlast⟩ := exists_mem_of_containsCode h
  exact containsCode_eq_false_of_misses (List.all_eq_true.mp hapart a ha) hfirst hlast

end Ranges

theorem isLetter_eq_false_of_isBlank {c : Char} (h : isBlank c) : isLetter c = false :=
  Ranges.contains_eq_false_of_apart blanks letters (by decide +kernel) h

theorem isDigit_eq_false_of_isBlank {c : Char} (h : isBlank c) : isDigit c = false := by
  have hdecimal : isDecimal c = false :=
    Ranges.contains_eq_false_of_apart blanks decimalDigits (by decide +kernel) h
  have hother : otherDigits.contains c = false :=
    Ranges.contains_eq_false_of_apart blanks otherDigits (by decide +kernel) h
  simp [isDigit, hdecimal, hother]

theorem isLetter_eq_false_of_isDigit {c : Char} (h : isDigit c) : isLetter c = false := by
  rcases Bool.or_eq_true_iff.mp h with h | h
  · exact Ranges.contains_eq_false_of_apart decimalDigits letters (by decide +kernel) h
  · exact Ranges.contains_eq_false_of_apart otherDigits letters (by decide +kernel) h

end Scriptlet.Text
