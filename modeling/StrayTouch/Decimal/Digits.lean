import StrayTouch.Number.Binary64

/-!
Decimal digits of exact quotients: where the leading digit stands, and the digits that remain
after rounding to a number of them.
-/
namespace StrayTouch.Decimal

/-- The decimal digits of a natural, most significant first. Zero has the one digit `0`. -/
def digits (n : Nat) : List Char :=
  Nat.toDigits 10 n

/-- How many decimal digits a natural has; zero has none. -/
def size (n : Nat) : Nat :=
  if n == 0 then 0 else (digits n).length

/-- The place of the leading digit of a positive quotient: the greatest `k` with
`10 ^ k ≤ num / den`. -/
def leadingPlace (num den : Nat) : Int :=
  if den ≤ num then (size (num / den) : Int) - 1
  else -(size ((den - 1) / num) : Int)

/-- A positive decimal: its digits read as a natural, times a power of ten. -/
structure Figure where
  digits : Nat
  place : Int

namespace Figure

def leading (f : Figure) : Int :=
  f.place + (Decimal.digits f.digits).length - 1

def significant (f : Figure) : List Char :=
  ((Decimal.digits f.digits).reverse.dropWhile (· == '0')).reverse

end Figure

def shifted (num den : Nat) (place : Int) : Nat × Nat :=
  (num * tenTo (-place).toNat, den * tenTo place.toNat)

/-- A positive quotient rounded at a place, a tie going to the even digit. -/
def roundedAt (num den : Nat) (place : Int) : Figure :=
  let (n, d) := shifted num den place
  ⟨Binary64.roundQuotient n d, place⟩

def roundedTo (count : Nat) (num den : Nat) : Figure :=
  roundedAt num den (leadingPlace num den - count + 1)

end StrayTouch.Decimal
