import StrayTouch.Text.Printable

/-!
Text in quotes, as messages show it: single quotes unless the text holds one and no double
quote, and escapes for what is not printable. Code points that are no characters, the halves of
surrogate pairs, are always escaped.
-/
namespace StrayTouch.Text

def hexadecimal (width n : Nat) : List Char :=
  let ds := Nat.toDigits 16 n
  List.replicate (width - ds.length) '0' ++ ds

def quoteFor (cs : List Char) : Char :=
  if cs.contains '\'' && !cs.contains '"' then '"' else '\''

def escaped (quote c : Char) : List Char :=
  if c == quote || c == '\\' then ['\\', c]
  else if c == '\n' then ['\\', 'n']
  else if c == '\r' then ['\\', 'r']
  else if c == '\t' then ['\\', 't']
  else if isPrintable c then [c]
  else if c.toNat < 0x100 then '\\' :: 'x' :: hexadecimal 2 c.toNat
  else if c.toNat < 0x10000 then '\\' :: 'u' :: hexadecimal 4 c.toNat
  else '\\' :: 'U' :: hexadecimal 8 c.toNat

def quoted (s : String) : String :=
  let cs := s.toList
  let q := quoteFor cs
  String.ofList (q :: cs.flatMap (escaped q) ++ [q])

def escapedByte (quote : Char) (b : Nat) : List Char :=
  let c := Char.ofNat b
  if c == quote || c == '\\' then ['\\', c]
  else if c == '\n' then ['\\', 'n']
  else if c == '\r' then ['\\', 'r']
  else if c == '\t' then ['\\', 't']
  else if 32 ≤ b && b < 127 then [c]
  else '\\' :: 'x' :: hexadecimal 2 b

def quotedBytes (bs : List Nat) : String :=
  let q := quoteFor (bs.map Char.ofNat)
  String.ofList ('b' :: q :: bs.flatMap (escapedByte q) ++ [q])

/-- Code points with characters written by `write`, and the rest escaped. -/
def withHalvesEscaped (write : Char → List Char) (points : List Nat) : List Char :=
  points.flatMap fun n =>
    if n.isValidChar then write (Char.ofNat n) else '\\' :: 'u' :: hexadecimal 4 n

def quotedPoints (points : List Nat) : String :=
  let q := quoteFor (points.map Char.ofNat)
  String.ofList (q :: withHalvesEscaped (escaped q) points ++ [q])

/-- Code points as a console writes them, which knows characters only. -/
def spokenPoints (points : List Nat) : String :=
  String.ofList (withHalvesEscaped (fun c => [c]) points)

end StrayTouch.Text
