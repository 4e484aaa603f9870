import StrayTouch.Proofs.Scalar.Sum
import Mathlib.Algebra.Order.Floor.Ring
import Mathlib.Algebra.Order.Field.Basic
import Mathlib.Data.Rat.Cast.Order

/-!
Exact arithmetic. The numbers are those of an ordered field, none of which is out of range and none
of which is rounded; the functions of the plane are whatever a field has for them.
-/
namespace StrayTouch

-- Sums and products in a field are those of the field.
attribute [-instance] Scalar.toAdd Scalar.toSub Scalar.toMul Scalar.toDiv

/-- What is asked of a field besides its arithmetic: half a turn, the length of a vector and its
direction, and a double to show a number by. -/
class Plane (K : Type) where
  pi : K
  hypot : K → K → K
  atan2 : K → K → K
  toFloat : K → Float

/-- Lengths are from zero on and grow with the vector, whose direction stays the same then. -/
class Plane.Lawful (K : Type) [Field K] [LinearOrder K] [Plane K] : Prop where
  hypot_nonneg (x y : K) : 0 ≤ hypot x y
  hypot_mul {k : K} (hk : 0 < k) (x y : K) : hypot (k * x) (k * y) = k * hypot x y
  atan2_mul {k : K} (hk : 0 < k) (x y : K) : atan2 (k * x) (k * y) = atan2 x y

/-- Lengths are from zero on, half a turn is more than nothing, and directions lie within it either
way. -/
class Plane.Directed (K : Type) [Field K] [LinearOrder K] [Plane K] : Prop where
  length_nonneg (x y : K) : 0 ≤ hypot x y
  pi_pos : 0 < (pi : K)
  neg_pi_le_atan2 (y x : K) : -pi ≤ atan2 y x
  atan2_le_pi (y x : K) : atan2 y x ≤ pi

/-- No direction is written in two ways: the one to the left is half a turn, never half a turn
back. -/
class Plane.Principal (K : Type) [Field K] [LinearOrder K] [Plane K] : Prop extends
    Plane.Directed K where
  neg_pi_lt_atan2 (y x : K) : -pi < atan2 y x

/-- Lengths are from zero on, only what goes nowhere has none, and no side of a triangle is longer
than the two others together. Two vectors with one origin are two of the sides, and the way between
their ends is the third, from whichever end it is measured. -/
class Plane.Metric (K : Type) [Field K] [LinearOrder K] [Plane K] : Prop where
  hypot_nonneg (x y : K) : 0 ≤ hypot x y
  hypot_eq_zero_iff {x y : K} : hypot x y = 0 ↔ x = 0 ∧ y = 0
  hypot_sub_le (x y u v : K) : hypot (x - u) (y - v) ≤ hypot x y + hypot u v

variable {K : Type} [Field K] [LinearOrder K] [FloorRing K] [Plane K]

/-- A double as the number that it is; zero for one that is none. -/
def Plane.ofFloat (x : Float) : K :=
  match Binary64.exact x with
  | .finite q => q
  | _ => 0

instance : Scalar K where
  zero := 0
  pi := Plane.pi
  ofNat := Nat.cast
  ofInt? := fun n => some n
  ofFloat := Plane.ofFloat
  toFloat := Plane.toFloat
  lt := fun x y => decide (x < y)
  le := fun x y => decide (x ≤ y)
  ltInt := fun x n => decide (x < n)
  intLt := fun n x => decide ((n : K) < x)
  isFinite := fun _ => true
  floorMod := fun x y => x - y * ⌊x / y⌋
  hypot := Plane.hypot
  atan2 := Plane.atan2
  total? := fun xs => some xs.sum
  ratio? := fun n d => some (n / d)

namespace Plane

theorem scalar_lt_iff {x y : K} : Scalar.lt x y = true ↔ x < y :=
  decide_eq_true_iff

theorem scalar_le_iff {x y : K} : Scalar.le x y = true ↔ x ≤ y :=
  decide_eq_true_iff

theorem scalar_sum (xs : List K) : Scalar.sum xs = xs.sum :=
  List.sum_eq_foldl.symm

/-- All sums are exact. -/
theorem exactly_id : Scalar.Exactly (id : K → K) fun _ => True where
  zero := rfl
  add := fun _ => rfl
  fits_left := fun _ => trivial

end Plane

section Order

variable [IsStrictOrderedRing K]

instance : Scalar.Monotone K where
  le_trans := by
    intro x y z hxy hyz
    rw [Plane.scalar_le_iff] at *
    exact hxy.trans hyz
  lt_of_lt_of_le := by
    intro x y z hxy hyz
    rw [Plane.scalar_lt_iff] at *
    exact hxy.trans_le (Plane.scalar_le_iff.mp hyz)
  le_of_not_lt := by
    intro x y _ _ h
    exact Plane.scalar_le_iff.mpr (not_lt.mp (of_decide_eq_false h))
  isFinite_zero := rfl
  le_refl := fun _ => Plane.scalar_le_iff.mpr le_rfl
  zero_le_zero := Plane.scalar_le_iff.mpr le_rfl
  le_add_zero := fun {x} _ => Plane.scalar_le_iff.mpr (add_zero x).ge
  add_le_add := by
    intro x y u v _ hxy _ huv
    exact Plane.scalar_le_iff.mpr
      (add_le_add (Plane.scalar_le_iff.mp hxy) (Plane.scalar_le_iff.mp huv))

instance : Scalar.Ordered K where
  le_of_lt := fun h => Plane.scalar_le_iff.mpr (Plane.scalar_lt_iff.mp h).le
  lt_of_le_of_lt := by
    intro x y z hxy hyz
    exact Plane.scalar_lt_iff.mpr
      ((Plane.scalar_le_iff.mp hxy).trans_lt (Plane.scalar_lt_iff.mp hyz))
  ltInt_of_le := by
    intro x y n hxy hy
    exact decide_eq_true ((Plane.scalar_le_iff.mp hxy).trans_lt (of_decide_eq_true hy))
  intLt_of_le := by
    intro x y n hx hxy
    exact decide_eq_true ((of_decide_eq_true hx).trans_le (Plane.scalar_le_iff.mp hxy))

instance : Scalar.Counting K where
  ofNat_le := fun h => Plane.scalar_le_iff.mpr (Nat.cast_le.mpr h)

end Order

end StrayTouch
