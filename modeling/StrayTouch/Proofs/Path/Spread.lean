import StrayTouch.Path.Spread
import StrayTouch.Proofs.Scalar.Plane
import Mathlib.Algebra.BigOperators.Ring.List
import Mathlib.Algebra.Order.BigOperators.Group.List
import Mathlib.Tactic.Ring

/-!
The variance in exact arithmetic. It vanishes only where all numbers are equal, and all that it sees
of them is how far apart they are.
-/
namespace StrayTouch

-- Sums and products in a field are those of the field.
attribute [-instance] Scalar.toAdd Scalar.toSub Scalar.toMul Scalar.toDiv

variable {K : Type} [Field K] [LinearOrder K] [IsStrictOrderedRing K] [FloorRing K] [Plane K]

omit [IsStrictOrderedRing K] in
theorem mean_eq_div (xs : List K) : mean xs = xs.sum / xs.length :=
  congrArg (· / (xs.length : K)) (Plane.scalar_sum xs)

/-- The sum of the squares of all distances from the mean. -/
def deviation (xs : List K) : K :=
  (xs.map fun x => (x - mean xs) * (x - mean xs)).sum

omit [IsStrictOrderedRing K] in
theorem variance_eq_div {xs : List K} (h : 2 ≤ xs.length) :
    variance xs = deviation xs / xs.length := by
  have hmap : (xs.map fun x => (x - mean xs) * (x - mean xs)).length = xs.length :=
    List.length_map _
  rw [deviation, ← hmap, ← mean_eq_div]
  exact if_neg (Nat.not_lt.mpr h)

omit [IsStrictOrderedRing K] in
theorem variance_of_length_lt {xs : List K} (h : xs.length < 2) : variance xs = 0 :=
  if_pos h

omit [IsStrictOrderedRing K] in
theorem sum_sub_mean {xs : List K} (h : (xs.length : K) ≠ 0) :
    (xs.map fun x => x - mean xs).sum = 0 := by
  simp only [sub_eq_add_neg]
  rw [List.sum_map_add, List.map_id', List.map_const', List.sum_replicate, nsmul_eq_mul, mul_neg,
    mean_eq_div, mul_div_cancel₀ _ h, add_neg_cancel]

omit [IsStrictOrderedRing K] in
theorem sum_distances_from {xs : List K} (h : (xs.length : K) ≠ 0) (x : K) :
    (xs.map fun y => (y - x) * (y - x)).sum =
      deviation xs + xs.length * ((x - mean xs) * (x - mean xs)) := by
  have hsplit (y : K) : (y - x) * (y - x) = (y - mean xs) * (y - mean xs) +
      (2 * (mean xs - x) * (y - mean xs) + (x - mean xs) * (x - mean xs)) := by
    ring
  simp only [hsplit]
  rw [List.sum_map_add, List.sum_map_add, List.sum_map_mul_left, sum_sub_mean h, mul_zero, zero_add,
    List.map_const', List.sum_replicate, nsmul_eq_mul, deviation]

omit [IsStrictOrderedRing K] in
theorem sum_distances {xs : List K} (h : (xs.length : K) ≠ 0) :
    (xs.map fun x => (xs.map fun y => (y - x) * (y - x)).sum).sum =
      2 * xs.length * deviation xs := by
  simp only [sum_distances_from h]
  rw [List.sum_map_add, List.map_const', List.sum_replicate, nsmul_eq_mul, List.sum_map_mul_left,
    ← deviation]
  ring

/-- The variance sees no more of the numbers than how far apart they are. -/
theorem variance_map {f : K → K} {xs : List K}
    (h : ∀ x ∈ xs, ∀ y ∈ xs, (f y - f x) * (f y - f x) = (y - x) * (y - x)) :
    variance (xs.map f) = variance xs := by
  rcases Nat.lt_or_ge xs.length 2 with hshort | hlong
  · rw [variance_of_length_lt hshort, variance_of_length_lt (by rwa [List.length_map])]
  · have hlength : (xs.length : K) ≠ 0 := Nat.cast_ne_zero.mpr (by omega)
    have hmap : ((xs.map f).length : K) ≠ 0 := by rwa [List.length_map]
    have hsums : ((xs.map f).map fun x => ((xs.map f).map fun y => (y - x) * (y - x)).sum).sum =
        (xs.map fun x => (xs.map fun y => (y - x) * (y - x)).sum).sum := by
      simp only [List.map_map]
      refine congrArg List.sum (List.map_congr_left fun x hx => ?_)
      exact congrArg List.sum (List.map_congr_left fun y hy => h x hx y hy)
    rw [sum_distances hmap, sum_distances hlength, List.length_map] at hsums
    have hdeviation := mul_left_cancel₀ (mul_ne_zero two_ne_zero hlength) hsums
    rw [variance_eq_div hlong, variance_eq_div (by rwa [List.length_map]), hdeviation,
      List.length_map]

end StrayTouch
