import Scriptlet.Text.Layout
import Scriptlet.Text.Quoted

/-! Templates: texts with fields in braces that arguments fill.  A field names its argument by number, or takes the
next one if it has no name; one template has fields of one of these kinds only.  After the name a field may pick
characters of the argument by their places, and ask for it in quotes (behind an exclamation mark) or in a layout
(behind a colon), which may hold fields of its own.  A brace that is text is written twice. -/
namespace Scriptlet.Text

inductive TemplateError
  | loneOpening
  | loneClosing
  | unclosed
  | nestedOpening
  | noConversion
  | noColon
  | unclosedLayout
  | tooManyDigits
  | missing (place : Nat)
  | unknownName (name : String)
  | numberedBefore
  | emptyBefore
  | emptyStep
  | badStep
  | unclosedStep
  | noCharacter
  | notPlace
  | noMember (name : String)
  | unknownConversion (c : Char)
  /-- Fields lie deeper inside one another than in the layout of a field. -/
  | levels
  | layout (e : LayoutError)
deriving DecidableEq, Repr

def conversionText (c : Char) : String :=
  if 32 < c.toNat && c.toNat < 127 then String.singleton c else "\\x" ++ hexText c.toNat

def TemplateError.message : TemplateError → String
  | loneOpening => "Single '\x7b' encountered in format string"
  | loneClosing => "Single '\x7d' encountered in format string"
  | unclosed => "expected '\x7d' before end of string"
  | nestedOpening => "unexpected '\x7b' in field name"
  | noConversion => "end of string while looking for conversion specifier"
  | noColon => "expected ':' after conversion specifier"
  | unclosedLayout => "unmatched '\x7b' in format spec"
  | tooManyDigits => LayoutError.tooManyDigits.message
  | missing place => "Replacement index " ++ toString place ++ " out of range for positional args tuple"
  | unknownName name => name
  | numberedBefore => "cannot switch from manual field specification to automatic field numbering"
  | emptyBefore => "cannot switch from automatic field numbering to manual field specification"
  | emptyStep => "Empty attribute in format string"
  | badStep => "Only '.' or '[' may follow ']' in format field specifier"
  | unclosedStep => "Missing ']' in format string"
  | noCharacter => "string index out of range"
  | notPlace => "string indices must be integers, not 'str'"
  | noMember name => "'str' object has no attribute '" ++ name ++ "'"
  | unknownConversion c => "Unknown conversion specifier " ++ conversionText c
  | levels => "Max string recursion exceeded"
  | layout e => e.message

structure Field where
  name : List Char
  conversion : Option Char
  layout : List Char
deriving DecidableEq, Repr

/-- A template in parts.  A fault ends it: what follows is never looked at. -/
inductive Piece
  | letter (c : Char)
  | field (f : Field)
  | fault (e : TemplateError)
deriving DecidableEq, Repr

inductive Reading
  | plain
  | name (read : List Char)
  | bracketed (read : List Char)
  | conversion (name : List Char)
  | converted (name : List Char) (c : Char)
  /-- In a layout, with so many braces open. -/
  | layout (name : List Char) (conversion : Option Char) (braces : Nat) (read : List Char)
deriving DecidableEq, Repr

def pieces : Reading → List Char → List Piece
  | .plain, [] => []
  | .plain, '\x7b' :: '\x7b' :: rest => .letter '\x7b' :: pieces .plain rest
  | .plain, ['\x7b'] => [.fault .loneOpening]
  | .plain, '\x7b' :: rest => pieces (.name []) rest
  | .plain, '\x7d' :: '\x7d' :: rest => .letter '\x7d' :: pieces .plain rest
  | .plain, '\x7d' :: _ => [.fault .loneClosing]
  | .plain, c :: rest => .letter c :: pieces .plain rest
  | .name _, [] | .bracketed _, [] => [.fault .unclosed]
  | .name _, '\x7b' :: _ => [.fault .nestedOpening]
  | .name read, '\x7d' :: rest => .field ⟨read, none, []⟩ :: pieces .plain rest
  | .name read, '!' :: rest => pieces (.conversion read) rest
  | .name read, ':' :: rest => pieces (.layout read none 1 []) rest
  | .name read, '[' :: rest => pieces (.bracketed (read ++ ['['])) rest
  | .name read, c :: rest => pieces (.name (read ++ [c])) rest
  | .bracketed read, ']' :: rest => pieces (.name (read ++ [']'])) rest
  | .bracketed read, c :: rest => pieces (.bracketed (read ++ [c])) rest
  | .conversion _, [] => [.fault .noConversion]
  | .conversion read, c :: rest => pieces (.converted read c) rest
  | .converted _ _, [] | .layout _ _ _ _, [] => [.fault .unclosedLayout]
  | .converted read c, '\x7d' :: rest => .field ⟨read, some c, []⟩ :: pieces .plain rest
  | .converted read c, ':' :: rest => pieces (.layout read (some c) 1 []) rest
  | .converted _ _, _ :: _ => [.fault .noColon]
  | .layout name conversion braces read, '\x7b' :: rest =>
    pieces (.layout name conversion (braces + 1) (read ++ ['\x7b'])) rest
  | .layout name conversion braces read, '\x7d' :: rest =>
    if braces ≤ 1 then .field ⟨name, conversion, read⟩ :: pieces .plain rest
    else pieces (.layout name conversion (braces - 1) (read ++ ['\x7d'])) rest
  | .layout name conversion braces read, c :: rest =>
    pieces (.layout name conversion braces (read ++ [c])) rest

inductive Numbering
  | open
  | empty (next : Nat)
  | numbered
deriving DecidableEq, Repr

/-- Carries a number on by digits.  None if there is a character that is no digit, unless the number is too
large before it. -/
def countFrom : Nat → List Char → Except TemplateError (Option Nat)
  | n, [] => .ok (some n)
  | n, c :: rest =>
    match digitValue? c with
    | none => .ok none
    | some d => if 10 * n + d ≤ maxCount then countFrom (10 * n + d) rest else .error .tooManyDigits

def count? (cs : List Char) : Except TemplateError (Option Nat) := if cs.isEmpty then .ok none else countFrom 0 cs

/-- The place of the argument for a name, and how fields are numbered from then on. -/
def placeOf (numbering : Numbering) (name : List Char) : Except TemplateError (Nat × Numbering) := do
  match ← count? name with
  | some place =>
    match numbering with
    | .empty _ => .error .emptyBefore
    | _ => return (place, .numbered)
  | none =>
    if !name.isEmpty then .error (.unknownName (String.ofList name))
    else
      match numbering with
      | .open => return (0, .empty 1)
      | .empty next => return (next, .empty (next + 1))
      | .numbered => .error .numberedBefore

def startsStep (c : Char) : Bool := c = '.' || c = '['

/-- Goes where the steps after a name lead: a place in brackets leads to the character there, and a member after a point
leads nowhere, as a text has none.  At most `bound` steps are taken, so the length of the steps is enough. -/
def follow : (bound : Nat) → (steps value : List Char) → Except TemplateError (List Char)
  | 0, _, value => .ok value
  | _, [], value => .ok value
  | _ + 1, '.' :: rest, _ =>
    let name := rest.takeWhile fun c => !startsStep c
    .error (if name.isEmpty then .emptyStep else .noMember (String.ofList name))
  | bound + 1, '[' :: rest, value =>
    match rest.dropWhile (· ≠ ']') with
    | [] => .error .unclosedStep
    | _ :: others => do
      let inside := rest.takeWhile (· ≠ ']')
      let place ← count? inside
      if inside.isEmpty then .error .emptyStep
      else
        match place with
        | none => .error .notPlace
        | some n =>
          match value[n]? with
          | none => .error .noCharacter
          | some c => follow bound others [c]
  | _, _ :: _, _ => .error .badStep

/-- An argument as a conversion asks for it: in quotes, in quotes without characters that not all terminals have, or as
it is. -/
def convert (conversion : Option Char) (cs : List Char) : Except TemplateError (List Char) :=
  match conversion with
  | none | some 's' => .ok cs
  | some 'r' => .ok (quotedWith isPrintable cs)
  | some 'a' => .ok (quotedWith isPrintableAscii cs)
  | some c => .error (.unknownConversion c)

section
variable (args : List String)
  (expand : Numbering → List Char → Except TemplateError (List Char × Numbering))

def fillField (numbering : Numbering) (f : Field) : Except TemplateError (List Char × Numbering) := do
  let name := f.name.takeWhile fun c => !startsStep c
  let steps := f.name.dropWhile fun c => !startsStep c
  let (place, numbering) ← placeOf numbering name
  match args[place]? with
  | none => .error (.missing place)
  | some arg =>
    let value ← follow steps.length steps arg.toList
    let value ← convert f.conversion value
    let (layout, numbering) ←
      if f.layout.contains '\x7b' then expand numbering f.layout else .ok (f.layout, numbering)
    match layOut layout value with
    | .ok cs => return (cs, numbering)
    | .error e => .error (.layout e)

def fillPieces (numbering : Numbering) : List Piece → Except TemplateError (List Char × Numbering)
  | [] => .ok ([], numbering)
  | .letter c :: rest => do
    let (cs, numbering) ← fillPieces numbering rest
    return (c :: cs, numbering)
  | .field f :: rest => do
    let (value, numbering) ← fillField args expand numbering f
    let (cs, numbering) ← fillPieces numbering rest
    return (value ++ cs, numbering)
  | .fault e :: _ => .error e

end

def fillLevels (args : List String) :
    (levels : Nat) → Numbering → List Char → Except TemplateError (List Char × Numbering)
  | 0, _, _ => .error .levels
  | levels + 1, numbering, template => fillPieces args (fillLevels args levels) numbering (pieces .plain template)

/-- A template with its fields filled by arguments.  A layout may have fields, and those in it may not. -/
def fill (template : String) (args : List String) : Except TemplateError String := do
  let (cs, _) ← fillLevels args 2 .open template.toList
  return String.ofList cs

end Scriptlet.Text
