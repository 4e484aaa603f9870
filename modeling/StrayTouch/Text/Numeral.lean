import StrayTouch.Number.Binary64
import StrayTouch.Text.Character

/-!
Reading numbers from text. Blanks may stand around a number, digits may be of any script, and an
underscore may stand between two digits.
-/
namespace StrayTouch.Text

def plain (c : Char) : Char :=
  match digitValue? c with
  | some d => Char.ofNat (48 + d)
  | none => c

/-- The text without the underscores that stand between two digits; any other underscore makes
it no number. The flag says whether a digit has just been passed. -/
def withoutUnderscores? (isDigit : Char → Bool) (afterDigit : Bool) :
    List Char → Option (List Char)
  | [] => some []
  | '_' :: c :: rest =>
    if afterDigit && isDigit c then
      (withoutUnderscores? isDigit true rest).map (c :: ·)
    else none
  | '_' :: [] => none
  | c :: rest => (withoutUnderscores? isDigit (isDigit c) rest).map (c :: ·)

def takeSign : List Char → Bool × List Char
  | '-' :: rest => (true, rest)
  | '+' :: rest => (false, rest)
  | cs => (false, cs)

def valueOf (ds : List Char) : Nat :=
  ds.foldl (fun n d => 10 * n + (d.toNat - 48)) 0

/-- A whole number with more decimal digits is neither read nor shown. -/
def greatestDigitCount : Nat := 4300

inductive Whole where
  | number (n : Int)
  /-- More decimal digits than are read, whatever follows them. -/
  | tooLong (count : Nat)
  | unreadable
  deriving DecidableEq

def hexValue? (c : Char) : Option Nat :=
  if c.isDigit then some (c.toNat - 48)
  else if 'a' ≤ c ∧ c ≤ 'f' then some (c.toNat - 87)
  else if 'A' ≤ c ∧ c ≤ 'F' then some (c.toNat - 55)
  else none

def isDigitOf (base : Nat) (c : Char) : Bool :=
  (hexValue? c).any (· < base)

def valueIn (base : Nat) (ds : List Char) : Nat :=
  ds.foldl (fun n d => base * n + (hexValue? d).getD 0) 0

def baseMark? (base : Nat) : Option Char :=
  if base == 2 then some 'b'
  else if base == 8 then some 'o'
  else if base == 16 then some 'x'
  else none

/-- The text without the mark of its base, after which there may be an underscore. -/
def withoutBaseMark (base : Nat) : List Char → List Char
  | '0' :: c :: rest =>
    if baseMark? base == some c.toLower then
      if rest.head? == some '_' then rest.tail else rest
    else '0' :: c :: rest
  | cs => cs

/-- The whole number that the digits of a base stand for, which must not be followed by anything.
Only decimal digits are counted. -/
def readDigits (base : Nat) (negative : Bool) (cs : List Char) : Whole :=
  let isPart := fun c => isDigitOf base c || c == '_'
  match withoutUnderscores? (isDigitOf base) false (cs.takeWhile isPart) with
  | none => .unreadable
  | some ds =>
    if base == 10 && greatestDigitCount < ds.length then .tooLong ds.length
    else if ds.isEmpty || !(cs.dropWhile isPart).isEmpty then .unreadable
    else .number (if negative then -(valueIn base ds : Int) else valueIn base ds)

def readWholeOf (base : Nat) (cs : List Char) : Whole :=
  let (negative, rest) := takeSign ((trimmed cs).map plain)
  readDigits base negative (withoutBaseMark base rest)

def readWhole (base : Nat) (s : String) : Whole :=
  readWholeOf base s.toList

def readInt? (s : String) : Option Int :=
  match readWhole 10 s with
  | .number n => some n
  | _ => none

/-- The nearest double to a decimal, beyond the range the infinite one. The bounds keep the
powers of ten small. -/
def decimalToFloat (negative : Bool) (mantissa : Nat) (size : Nat) (exponent : Int) : Float :=
  let magnitude : Float :=
    if mantissa == 0 || exponent + size < -400 then 0.0
    else if 400 < exponent + size then Binary64.infinity
    else
      (Binary64.nearest? (mantissa * tenTo exponent.toNat) (tenTo (-exponent).toNat)).getD
        Binary64.infinity
  if negative then -magnitude else magnitude

def readExponent? : List Char → Option Int
  | [] => some 0
  | c :: rest =>
    let (negative, ds) := takeSign rest
    if (c == 'e' || c == 'E') && !ds.isEmpty && ds.all Char.isDigit then
      some (if negative then -(valueOf ds : Int) else valueOf ds)
    else none

def readDecimal? (negative : Bool) (cs : List Char) : Option Float := do
  let whole := cs.takeWhile Char.isDigit
  let rest := cs.dropWhile Char.isDigit
  let (part, rest) := match rest with
    | '.' :: rest => (rest.takeWhile Char.isDigit, rest.dropWhile Char.isDigit)
    | rest => ([], rest)
  let exponent ← readExponent? rest
  if whole.isEmpty && part.isEmpty then none
  else
    let ds := (whole ++ part).dropWhile (· == '0')
    some (decimalToFloat negative (valueOf ds) ds.length (exponent - part.length))

/-- The double that characters stand for: a decimal, an infinity, or the word for no number, in
letters of either case. -/
def readFloatOf? (cs : List Char) : Option Float := do
  let cs ← withoutUnderscores? Char.isDigit false ((trimmed cs).map plain)
  let (negative, rest) := takeSign cs
  let word := String.ofList (rest.map Char.toLower)
  if word == "inf" || word == "infinity" then
    some (if negative then -Binary64.infinity else Binary64.infinity)
  else if word == "nan" then some Binary64.notANumber
  else readDecimal? negative rest

def readFloat? (s : String) : Option Float :=
  readFloatOf? s.toList

/-- Bytes as the characters of ASCII. The other bytes stand for no character that numbers go by. -/
def charsOfBytes (bs : List Nat) : List Char :=
  bs.map fun b => if b < 128 then Char.ofNat b else Char.ofNat 0

end StrayTouch.Text
