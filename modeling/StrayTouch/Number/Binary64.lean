import StrayTouch.Number.Exact
import StrayTouch.Number.Power

/-!
Doubles taken apart and put together. `form` reads the sign, mantissa and exponent of a double;
`nearest?` rounds an exact quotient to the nearest double, a tie going to the even mantissa, and
gives nothing where the result would lie outside the range.
-/
namespace StrayTouch.Binary64

/-- A finite double: `mantissa * 2 ^ exponent`, with its sign. -/
structure Parts where
  negative : Bool
  mantissa : Nat
  exponent : Int

inductive Form where
  | finite (parts : Parts)
  | infinite (negative : Bool)
  | nan

def leastExponent : Int := -1074

def form (x : Float) : Form :=
  let bits : Nat := x.toBits.toNat
  let negative := bits / twoTo 63 == 1
  let field : Nat := bits / twoTo 52 % 2048
  let fraction : Nat := bits % twoTo 52
  if field == 2047 then
    if fraction == 0 then .infinite negative else .nan
  else if field == 0 then
    .finite ⟨negative, fraction, leastExponent⟩
  else
    .finite ⟨negative, fraction + twoTo 52, (field : Int) - 1075⟩

namespace Parts

def signed (p : Parts) : Int :=
  if p.negative then -(p.mantissa : Int) else p.mantissa

/-- The mantissa at a smaller exponent: `p = signedAt e * 2 ^ e`. -/
def signedAt (p : Parts) (e : Int) : Int :=
  p.signed * twoTo (p.exponent - e).toNat

def numerator (p : Parts) : Nat :=
  p.mantissa * twoTo p.exponent.toNat

def denominator (p : Parts) : Nat :=
  twoTo (-p.exponent).toNat

def toRat (p : Parts) : Rat :=
  mkRat (if p.negative then -(p.numerator : Int) else p.numerator) p.denominator

end Parts

def exact (x : Float) : Exact :=
  match form x with
  | .finite p => .finite p.toRat
  | .infinite true => .negInf
  | .infinite false => .posInf
  | .nan => .nan

def isFinite (x : Float) : Bool :=
  match form x with
  | .finite _ => true
  | _ => false

def isNaN (x : Float) : Bool :=
  match form x with
  | .nan => true
  | _ => false

def infinity : Float := Float.ofBits 0x7ff0000000000000

def notANumber : Float := Float.ofBits 0x7ff8000000000000

/-- The quotient rounded to the nearest whole number, a tie going to the even one. -/
def roundQuotient (num den : Nat) : Nat :=
  let q := num / den
  let r := num % den
  if 2 * r < den then q
  else if den < 2 * r then q + 1
  else if q % 2 == 0 then q else q + 1

/-- The greatest `l` with `2 ^ l ≤ num / den`, for a positive quotient. -/
def binaryExponent (num den : Nat) : Int :=
  let l : Int := (num.log2 : Int) - den.log2
  if den * twoTo l.toNat ≤ num * twoTo (-l).toNat then l else l - 1

/-- The bits of the nearest double to a quotient of naturals, or nothing if that is infinite.
A mantissa that rounds up to `2 ^ 53` carries into the exponent field by itself. -/
def nearestBits? (num den : Nat) : Option Nat :=
  if num == 0 then some 0 else
  let e := max (binaryExponent num den - 52) leastExponent
  let mantissa := roundQuotient (num * twoTo (-e).toNat) (den * twoTo e.toNat)
  let bits :=
    if mantissa < twoTo 52 then mantissa
    else (e + 1075).toNat * twoTo 52 + (mantissa - twoTo 52)
  if bits < 2047 * twoTo 52 then some bits else none

/-- The nearest double to `num / den`; nothing where that lies outside the range. -/
def nearest? (num : Int) (den : Nat) : Option Float :=
  (nearestBits? num.natAbs den).map fun bits =>
    Float.ofBits (UInt64.ofNat (if num < 0 then bits + twoTo 63 else bits))

def scaled? (num : Int) (e : Int) : Option Float :=
  nearest? (num * twoTo e.toNat) (twoTo (-e).toNat)

/-- The floored remainder by a positive double: it has the sign of the divisor, and a remainder
of zero is positive. -/
def floorMod (x y : Float) : Float :=
  match form x, form y with
  | .finite a, .finite b =>
    let e := min a.exponent b.exponent
    let r := (a.signedAt e).tmod (b.signedAt e)
    let exactRemainder := (scaled? r e).getD notANumber
    if b.mantissa == 0 then notANumber
    else if r == 0 then 0.0
    else if r < 0 then exactRemainder + y
    else exactRemainder
  | .finite a, .infinite _ =>
    if a.mantissa == 0 then 0.0 else if a.negative then y else x
  | _, _ => notANumber

end StrayTouch.Binary64
