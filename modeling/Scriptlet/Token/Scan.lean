import Scriptlet.Text.Blank
import Scriptlet.Text.Digit
import Scriptlet.Text.Letter
import Scriptlet.Token.Basic

/-! Scanning: a program text cut into tokens.  `first?` takes one token off the front of a text and
leaves a shorter text, so `tokens` reaches the end of every input. -/
namespace Scriptlet.Token
open Text

def startsWord (c : Char) : Bool := isLetter c || c = '_'

def continuesWord (c : Char) : Bool := startsWord c || isDigit c

/-- A string runs to the next quote; without one, all that is left is illegal. -/
def takeString (cs : List Char) : Token × List Char :=
  match cs.dropWhile (· ≠ '"') with
  | [] => (⟨.illegal, String.ofList cs⟩, [])
  | _ :: rest => (⟨.string, String.ofList (cs.takeWhile (· ≠ '"'))⟩, rest)

/-- An extensible symbol takes in the next character exactly if that is its second one. -/
def takeExtensible (c : Char) (e : Kind.Extension) : List Char → Token × List Char
  | [] => (⟨e.alone, String.singleton c⟩, [])
  | d :: rest =>
    if d = e.second then (⟨e.both, String.ofList [c, d]⟩, rest) else (⟨e.alone, String.singleton c⟩, d :: rest)

def takeFrom (c : Char) (rest : List Char) : Token × List Char :=
  match Kind.ofSymbol? c with
  | some kind => (⟨kind, String.singleton c⟩, rest)
  | none =>
    match Kind.extension? c with
    | some e => takeExtensible c e rest
    | none =>
      if c = '"' then takeString rest
      else if isDigit c then
        (⟨.int, String.ofList (c :: rest.takeWhile isDigit)⟩, rest.dropWhile isDigit)
      else if startsWord c then
        let word := String.ofList (c :: rest.takeWhile continuesWord)
        (⟨Kind.ofWord word, word⟩, rest.dropWhile continuesWord)
      else (⟨.illegal, String.singleton c⟩, rest)

/-- The first token of a text and what follows it; none if only blanks are left. -/
def first? (cs : List Char) : Option (Token × List Char) :=
  match trimStart cs with
  | [] => none
  | c :: rest => some (takeFrom c rest)

theorem length_dropWhile_le (p : Char → Bool) (cs : List Char) : (cs.dropWhile p).length ≤ cs.length := by
  induction cs with
  | nil => simp
  | cons c cs ih =>
    by_cases h : p c
    · simp only [h, List.dropWhile_cons_of_pos, List.length_cons]
      omega
    · simp [h]

theorem length_takeString_le (cs : List Char) : (takeString cs).2.length ≤ cs.length := by
  have h := length_dropWhile_le (· ≠ '"') cs
  unfold takeString
  split
  · simp
  · next heq => simp only [heq, List.length_cons] at h; simp only; omega

theorem length_takeExtensible_le (c : Char) (e : Kind.Extension) (cs : List Char) :
    (takeExtensible c e cs).2.length ≤ cs.length := by
  unfold takeExtensible
  split
  · simp
  · split <;> simp

theorem length_takeFrom_le (c : Char) (rest : List Char) : (takeFrom c rest).2.length ≤ rest.length := by
  have hd := length_dropWhile_le isDigit rest
  have hw := length_dropWhile_le continuesWord rest
  have hs := length_takeString_le rest
  unfold takeFrom
  split
  · exact Nat.le_refl _
  · split
    · exact length_takeExtensible_le _ _ _
    · split
      · exact hs
      · split
        · exact hd
        · split
          · exact hw
          · exact Nat.le_refl _

theorem length_first?_lt {cs rest : List Char} {t : Token} (h : first? cs = some (t, rest)) :
    rest.length < cs.length := by
  have htrim : (trimStart cs).length ≤ cs.length := length_dropWhile_le isBlank cs
  unfold first? at h
  split at h
  · cases h
  · next c tail heq =>
    have hf := length_takeFrom_le c tail
    simp only [Option.some.injEq] at h
    rw [h] at hf
    rw [heq, List.length_cons] at htrim
    simp only at hf
    omega

def steps (cs : List Char) : List (Token × List Char) :=
  match _h : first? cs with
  | none => []
  | some (t, rest) => (t, rest) :: steps rest
termination_by cs.length
decreasing_by exact length_first?_lt _h

def tokens (cs : List Char) : List Token := (steps cs).map (·.1)

/-- A program text without the blanks around it, and its tokens, each with the place where it ends. -/
structure Scan where
  stripped : List Char
  found : List (Token × Nat)

/-- Places count the characters of the stripped text. -/
def scan (source : List Char) : Scan :=
  let stripped := trim source
  ⟨stripped, (steps stripped).map fun (t, rest) => (t, stripped.length - rest.length)⟩

def ofSource (source : List Char) : List Token := tokens (trim source)

end Scriptlet.Token
