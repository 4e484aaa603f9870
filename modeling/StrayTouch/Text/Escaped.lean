import StrayTouch.Text.Quoted

/-!
Strings of a data file in ASCII: double quotes, short escapes where there are any, and every
other character outside the printable ASCII range as the units of its sixteen bit encoding.
-/
namespace StrayTouch.Text

/-- The units of a character in the sixteen bit encoding: one, or a pair beyond `0xffff`. -/
def units16 (c : Char) : List Nat :=
  let n := c.toNat
  if n < 0x10000 then [n]
  else [0xd800 + (n - 0x10000) / 0x400, 0xdc00 + (n - 0x10000) % 0x400]

def escapedAscii (c : Char) : List Char :=
  if c == '"' || c == '\\' then ['\\', c]
  else if c == '\n' then ['\\', 'n']
  else if c == '\r' then ['\\', 'r']
  else if c == '\t' then ['\\', 't']
  else if c.toNat == 8 then ['\\', 'b']
  else if c.toNat == 12 then ['\\', 'f']
  else if 32 ≤ c.toNat && c.toNat < 127 then [c]
  else (units16 c).flatMap fun u => '\\' :: 'u' :: hexadecimal 4 u

def literal (s : String) : String :=
  String.ofList ('"' :: s.toList.flatMap escapedAscii ++ ['"'])

/-- A string literal of code points, of which those that are no characters are units already. -/
def literalPoints (points : List Nat) : String :=
  String.ofList ('"' :: withHalvesEscaped escapedAscii points ++ ['"'])

end StrayTouch.Text
