import StrayTouch.Scalar

/-!
The mean of a list of numbers and their variance about it. Sums are taken from the first number to
the last. On doubles a sum of eight numbers or more that is added up in pairs may differ from this
one in the last digit; in exact arithmetic there is no difference.
-/
namespace StrayTouch

variable {α : Type} [Scalar α]

def mean (xs : List α) : α :=
  Scalar.sum xs / Scalar.ofNat xs.length

/-- The population variance; zero for fewer than two numbers. -/
def variance (xs : List α) : α :=
  if xs.length < 2 then Scalar.zero
  else
    let centre := mean xs
    mean (xs.map fun x => (x - centre) * (x - centre))

/-- Distance over time, zero where no time has passed. -/
def velocity (distance seconds : α) : α :=
  if Scalar.le seconds Scalar.zero then Scalar.zero else distance / seconds

end StrayTouch
