import Scriptlet.Text.Blank

/-! Units: runs of lines that are evaluated together.  A line whose brackets stay open is continued on the next one. -/
namespace Scriptlet.SourceUnit
open Text

/-- The characters that stand outside of strings, when `inside` tells where the text starts. -/
def outsideStrings : (inside : Bool) → List Char → List Char
  | _, [] => []
  | inside, c :: rest =>
    if c = '"' then outsideStrings (!inside) rest
    else if inside then outsideStrings inside rest
    else c :: outsideStrings inside rest

def brackets : List (Char × Char) := [('(', ')'), ('[', ']'), ('\x7b', '\x7d')]

/-- Whether, outside of strings, more brackets of some kind open than close. -/
def hasOpenBrackets (cs : List Char) : Bool :=
  let code := outsideStrings false cs
  brackets.any fun (opening, closing) => code.count closing < code.count opening

def join (pending line : List Char) : List Char :=
  if pending.isEmpty then trim line else trim (pending ++ ' ' :: trim line)

/-- The complete units of a text's lines, each with the number of its last line, which is one more than
`number` for the first line.  A unit still open at the end is taken as it is. -/
def ofLines : (pending : List Char) → (number : Nat) → List (List Char) → List (Nat × List Char)
  | pending, number, [] => if pending.isEmpty then [] else [(number, pending)]
  | pending, number, line :: rest =>
    let unit := join pending line
    if !unit.isEmpty && !hasOpenBrackets unit then (number + 1, unit) :: ofLines [] (number + 1) rest
    else ofLines unit (number + 1) rest

end Scriptlet.SourceUnit
