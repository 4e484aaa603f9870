import StrayTouch.Decimal.Digits

/-!
The shortest decimal that reads back to a double, and the nearest one among those.
-/
namespace StrayTouch.Decimal

/-- The reals that round to a double, in quarters of its last place: everything between the two
ends, and the ends themselves when the mantissa is even. -/
structure Interval where
  low : Nat
  value : Nat
  high : Nat
  closed : Bool
  exponent : Int

namespace Interval

/-- Below a power of two the neighbour is half as far away, except at the least exponent. -/
def ofParts (p : Binary64.Parts) : Interval where
  low :=
    if p.mantissa == twoTo 52 && p.exponent != Binary64.leastExponent then 4 * p.mantissa - 1
    else 4 * p.mantissa - 2
  value := 4 * p.mantissa
  high := 4 * p.mantissa + 2
  closed := p.mantissa % 2 == 0
  exponent := p.exponent - 2

def quotient (i : Interval) (n : Nat) : Nat × Nat :=
  (n * twoTo i.exponent.toNat, twoTo (-i.exponent).toNat)

def holds (i : Interval) (f : Figure) : Bool :=
  let unit := twoTo i.exponent.toNat * tenTo (-f.place).toNat
  let here := f.digits * tenTo f.place.toNat * twoTo (-i.exponent).toNat
  if i.closed then i.low * unit ≤ here && here ≤ i.high * unit
  else i.low * unit < here && here < i.high * unit

def nearestOf (i : Interval) (count : Nat) : Option Figure :=
  let (num, den) := i.quotient i.value
  let place := leadingPlace num den - count + 1
  let (n, d) := shifted num den place
  let down : Figure := ⟨n / d, place⟩
  let up : Figure := ⟨n / d + 1, place⟩
  let nearest := roundedAt num den place
  if i.holds nearest then some nearest
  else if i.holds down then some down
  else if i.holds up then some up
  else none

end Interval

/-- The decimal with the fewest digits that reads back to a positive double. Seventeen digits
always do. -/
def shortest (p : Binary64.Parts) : Figure :=
  let i := Interval.ofParts p
  ((List.range 17).findSome? fun n => i.nearestOf (n + 1)).getD ⟨p.mantissa, 0⟩

structure Layout where
  leastPlace : Int
  exponentFrom : Int
  markWhole : Bool

def zeros (n : Nat) : List Char :=
  List.replicate n '0'

/-- An exponent has a sign and two digits at least. -/
def exponentText (e : Int) : List Char :=
  let ds := digits e.natAbs
  'e' :: (if e < 0 then '-' else '+') :: (zeros (2 - ds.length) ++ ds)

def Layout.write (l : Layout) (ds : List Char) (leading : Int) : List Char :=
  if l.leastPlace ≤ leading && leading < l.exponentFrom then
    if leading < 0 then
      '0' :: '.' :: (zeros (-leading - 1).toNat ++ ds)
    else
      let whole := leading.toNat + 1
      let front := ds.take whole ++ zeros (whole - ds.length)
      let back := ds.drop whole
      if back.isEmpty then
        if l.markWhole then front ++ ['.', '0'] else front
      else front ++ '.' :: back
  else
    match ds with
    | [] => exponentText leading
    | d :: [] => d :: exponentText leading
    | d :: rest => d :: '.' :: rest ++ exponentText leading

/-- Every double is shown by the fewest digits that read back. Places are written out from
`0.0001` up to `10^16`, and a whole number keeps its `.0`. -/
def shownLayout : Layout := ⟨-4, 16, true⟩

def signed (negative : Bool) (text : List Char) : String :=
  String.ofList (if negative then '-' :: text else text)

def shown (x : Float) : String :=
  match Binary64.form x with
  | .nan => "nan"
  | .infinite negative => signed negative ['i', 'n', 'f']
  | .finite p =>
    if p.mantissa == 0 then signed p.negative ['0', '.', '0']
    else
      let f := shortest p
      signed p.negative (shownLayout.write f.significant f.leading)

end StrayTouch.Decimal
