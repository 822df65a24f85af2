import Scriptlet.Text.Digit

/-! Layouts: how wide a text is set, on which side of its column, and how much of it is shown.  A layout is written
as an optional filling character and side, a width, and a precision behind a point.  A written layout has room for
more parts, which only numbers can use; a text refuses them. -/
namespace Scriptlet.Text

/-- Numbers in templates and layouts have at most this value. -/
def maxCount : Nat := 9223372036854775807

def maxWidth : Nat := 68719476736

inductive LayoutError
  | tooManyDigits
  | twoSeparators
  | noPrecision
  | invalid (written : String)
  | separatorWith (separator kind : Char)
  | unknownKind (kind : Char)
  | spaceSign
  | sign
  | zeroSign
  | alternateForm
  | signAlignment
  /-- The column is wider than anything there is room for. -/
  | tooWide
deriving DecidableEq, Repr

def hexText (n : Nat) : String := String.ofList (Nat.toDigits 16 n)

def kindText (c : Char) : String :=
  if 32 < c.toNat && c.toNat < 128 then String.singleton c else "\\x" ++ hexText c.toNat

def LayoutError.message : LayoutError → String
  | tooManyDigits => "Too many decimal digits in format string"
  | twoSeparators => "Cannot specify both ',' and '_'."
  | noPrecision => "Format specifier missing precision"
  | invalid written => "Invalid format specifier '" ++ written ++ "' for object of type 'str'"
  | separatorWith separator kind =>
    "Cannot specify '" ++ String.singleton separator ++ "' with '" ++ kindText kind ++ "'."
  | unknownKind kind => "Unknown format code '" ++ kindText kind ++ "' for object of type 'str'"
  | spaceSign => "Space not allowed in string format specifier"
  | sign => "Sign not allowed in string format specifier"
  | zeroSign => "Negative zero coercion (z) not allowed in string format specifier"
  | alternateForm => "Alternate form (#) not allowed in string format specifier"
  | signAlignment => "'=' alignment not allowed in string format specifier"
  | tooWide => ""

inductive Side
  | left | right | middle
  /-- Between a number and its sign. -/
  | afterSign
deriving DecidableEq, Repr

def Side.ofChar? : Char → Option Side
  | '<' => some left
  | '>' => some right
  | '^' => some middle
  | '=' => some afterSign
  | _ => none

structure LayoutParts where
  fill : Char
  side : Side
  sign : Option Char
  zeroSign : Bool
  alternate : Bool
  width : Option Nat
  separator : Option Char
  precision : Option Nat
  /-- The kind of thing to set. -/
  kind : Char
deriving DecidableEq, Repr

def takeSide : List Char → Option Char × Option Side × List Char
  | c :: d :: rest =>
    match Side.ofChar? d with
    | some side => (some c, some side, rest)
    | none =>
      match Side.ofChar? c with
      | some side => (none, some side, d :: rest)
      | none => (none, none, c :: d :: rest)
  | [c] =>
    match Side.ofChar? c with
    | some side => (none, some side, [])
    | none => (none, none, [c])
  | [] => (none, none, [])

def takeIf (p : Char → Bool) : List Char → Option Char × List Char
  | c :: rest => if p c then (some c, rest) else (none, c :: rest)
  | [] => (none, [])

def takeCount (cs : List Char) : Except LayoutError (Option Nat × List Char) :=
  match cs.takeWhile isDecimal with
  | [] => .ok (none, cs)
  | digits =>
    let n := (decimalValue? digits).getD 0
    if n ≤ maxCount then .ok (some n, cs.dropWhile isDecimal) else .error .tooManyDigits

def takeSeparator (cs : List Char) : Except LayoutError (Option Char × List Char) :=
  match cs with
  | ',' :: '_' :: _ => .error .twoSeparators
  | '_' :: ',' :: _ => .error .twoSeparators
  | ',' :: rest => .ok (some ',', rest)
  | '_' :: rest => .ok (some '_', rest)
  | cs => .ok (none, cs)

def takePrecision (cs : List Char) : Except LayoutError (Option Nat × List Char) :=
  match cs with
  | '.' :: rest => do
    let (count, rest) ← takeCount rest
    match count with
    | none => .error .noPrecision
    | some n => return (some n, rest)
  | cs => .ok (none, cs)

def allowsSeparator (separator kind : Char) : Bool :=
  ['d', 'e', 'f', 'g', 'E', 'G', '%', 'F', '\x00'].contains kind ||
    (separator = '_' && ['b', 'o', 'x', 'X'].contains kind)

def LayoutParts.read (cs : List Char) : Except LayoutError LayoutParts := do
  let (fill, side, rest) := takeSide cs
  let (sign, rest) := takeIf (fun c => c = ' ' || c = '+' || c = '-') rest
  let (zeroSign, rest) := takeIf (· = 'z') rest
  let (alternate, rest) := takeIf (· = '#') rest
  let (zero, rest) := takeIf (fun c => c = '0' && fill.isNone) rest
  let (width, rest) ← takeCount rest
  let (separator, rest) ← takeSeparator rest
  let (precision, rest) ← takePrecision rest
  let kind ← match rest with
    | [] => pure 's'
    | [c] => pure c
    | _ => .error (.invalid (String.ofList cs))
  match separator with
  | some mark => if !allowsSeparator mark kind then .error (.separatorWith mark kind)
  | none => pure ()
  return {
    fill := (fill.orElse fun _ => zero).getD ' '
    side := side.getD .left
    sign := sign
    zeroSign := zeroSign.isSome
    alternate := alternate.isSome
    width := width
    separator := separator
    precision := precision
    kind := kind }

structure Layout where
  fill : Char
  side : Side
  width : Nat
  /-- How many characters are shown, if not all. -/
  shown : Option Nat
deriving DecidableEq, Repr

def LayoutParts.forText (parts : LayoutParts) : Except LayoutError Layout :=
  if parts.kind ≠ 's' then .error (.unknownKind parts.kind)
  else if parts.sign = some ' ' then .error .spaceSign
  else if parts.sign.isSome then .error .sign
  else if parts.zeroSign then .error .zeroSign
  else if parts.alternate then .error .alternateForm
  else if parts.side = .afterSign then .error .signAlignment
  else .ok ⟨parts.fill, parts.side, parts.width.getD 0, parts.precision⟩

namespace Layout

/-- Splits the room around a text into what goes before and after it; an odd one goes after. -/
def split (side : Side) (room : Nat) : Nat × Nat :=
  match side with
  | .right => (room, 0)
  | .middle => (room / 2, room - room / 2)
  | .left | .afterSign => (0, room)

def part (layout : Layout) (cs : List Char) : List Char :=
  match layout.shown with
  | some n => cs.take n
  | none => cs

def apply (layout : Layout) (cs : List Char) : Except LayoutError (List Char) :=
  let part := layout.part cs
  let room := layout.width - part.length
  if maxWidth < room then .error .tooWide
  else
    let (before, after) := split layout.side room
    .ok (List.replicate before layout.fill ++ part ++ List.replicate after layout.fill)

end Layout

/-- Sets a text as a written layout asks.  An empty one changes nothing. -/
def layOut (written cs : List Char) : Except LayoutError (List Char) :=
  if written.isEmpty then .ok cs
  else do
    let parts ← LayoutParts.read written
    let layout ← parts.forText
    layout.apply cs

end Scriptlet.Text
