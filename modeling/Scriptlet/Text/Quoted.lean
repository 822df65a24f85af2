import Scriptlet.Text.Printable

/-! Text in quotes on one line.  Single quotes are taken, or double quotes around a text that holds single ones and no
double one.  The quote that was taken, backslashes and characters that cannot be printed are escaped. -/
namespace Scriptlet.Text

def hex (digits : Nat) (n : Nat) : List Char :=
  match digits with
  | 0 => []
  | digits + 1 => hex digits (n / 16) ++ [Nat.digitChar (n % 16)]

/-- One character between `quote`s, when `shown` tells which characters can be printed. -/
def escaped (shown : Char → Bool) (quote c : Char) : List Char :=
  if c = quote ∨ c = '\\' then ['\\', c]
  else if c = '\n' then ['\\', 'n']
  else if c = '\r' then ['\\', 'r']
  else if c = '\t' then ['\\', 't']
  else if shown c then [c]
  else if c.toNat < 0x100 then '\\' :: 'x' :: hex 2 c.toNat
  else if c.toNat < 0x10000 then '\\' :: 'u' :: hex 4 c.toNat
  else '\\' :: 'U' :: hex 8 c.toNat

def quoteFor (cs : List Char) : Char := if cs.contains '\'' && !cs.contains '"' then '"' else '\''

def quotedWith (shown : Char → Bool) (cs : List Char) : List Char :=
  let quote := quoteFor cs
  quote :: (cs.flatMap (escaped shown quote) ++ [quote])

def quoted (s : String) : String := String.ofList (quotedWith isPrintable s.toList)

def isPrintableAscii (c : Char) : Bool := ' ' ≤ c && c ≤ '~'

end Scriptlet.Text
