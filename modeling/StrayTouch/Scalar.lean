import StrayTouch.Number.Root
import StrayTouch.Number.Total

/-!
The numbers that gestures are measured with. Everything between a recorded point and a verdict
is written over `Scalar`, so that the same definitions run on doubles and can be reasoned about
on exact numbers.
-/
namespace StrayTouch

/-- Arithmetic, order and the few functions of the plane that features need. Operations that
can leave the range of the numbers give nothing there. -/
class Scalar (α : Type) extends Add α, Sub α, Mul α, Div α where
  zero : α
  pi : α
  ofNat : Nat → α
  /-- A whole number of any size, unless it is too large. -/
  ofInt? : Int → Option α
  ofFloat : Float → α
  toFloat : α → Float
  lt : α → α → Bool
  le : α → α → Bool
  /-- Comparison with a whole number, which is not rounded for it. -/
  ltInt : α → Int → Bool
  intLt : Int → α → Bool
  isFinite : α → Bool
  /-- The remainder that has the sign of the divisor. -/
  floorMod : α → α → α
  hypot : α → α → α
  atan2 : α → α → α
  total? : List α → Option α
  ratio? : Int → Nat → Option α

/-- Doubles. Comparisons are those of the exact values, and sums of lists, quotients of whole
numbers and lengths are rounded once. -/
instance : Scalar Float where
  zero := 0.0
  pi := 3.141592653589793
  ofNat := fun n => n.toFloat
  ofInt? := fun n => Binary64.nearest? n 1
  ofFloat := id
  toFloat := id
  lt := fun x y => (Binary64.exact x).lt (Binary64.exact y)
  le := fun x y => (Binary64.exact x).le (Binary64.exact y)
  ltInt := fun x n => (Binary64.exact x).lt (.ofInt n)
  intLt := fun n x => Exact.lt (.ofInt n) (Binary64.exact x)
  isFinite := Binary64.isFinite
  floorMod := Binary64.floorMod
  hypot := Binary64.hypotenuse
  atan2 := Float.atan2
  total? := Binary64.total?
  ratio? := Binary64.nearest?

namespace Scalar

variable {α : Type} [Scalar α]

/-- The sum of a list, added from the left onto zero. -/
def sum (xs : List α) : α :=
  xs.foldl (· + ·) zero

end Scalar

end StrayTouch
