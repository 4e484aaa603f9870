import StrayTouch.Decimal.Shortest

/-!
Doubles with a fixed number of places after the point, and with a fixed number of significant
digits. Both round the exact value of the double, a tie going to the even digit.
-/
namespace StrayTouch.Decimal

def pointed (n places : Nat) : List Char :=
  let ds := digits n
  let padded := zeros (places + 1 - ds.length) ++ ds
  let whole := padded.length - places
  if places == 0 then padded else padded.take whole ++ '.' :: padded.drop whole

/-- A double with a fixed number of places. The sign of a negative double stays even where all
its digits round to zero. -/
def fixed (places : Nat) (x : Float) : String :=
  match Binary64.form x with
  | .nan => "nan"
  | .infinite negative => signed negative ['i', 'n', 'f']
  | .finite p =>
    signed p.negative
      (pointed (roundedAt p.numerator p.denominator (-(places : Int))).digits places)

/-- A double to a number of significant digits, without the zeros at their end. Places are
written out from `0.0001` up to as many digits as are kept. -/
def general (count : Nat) (x : Float) : String :=
  match Binary64.form x with
  | .nan => "nan"
  | .infinite negative => signed negative ['i', 'n', 'f']
  | .finite p =>
    if p.mantissa == 0 then signed p.negative ['0']
    else
      let f := roundedTo count p.numerator p.denominator
      signed p.negative (Layout.write ⟨-4, count, false⟩ f.significant f.leading)

def withoutZeroSign (text : String) : String :=
  match text.toList with
  | '-' :: rest => if rest.all fun c => c == '0' || c == '.' then String.ofList rest else text
  | _ => text

end StrayTouch.Decimal
