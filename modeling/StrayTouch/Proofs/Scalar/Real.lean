import StrayTouch.Proofs.Scalar.Plane
import Mathlib.Analysis.SpecialFunctions.Complex.Arg

/-!
The real numbers with the usual functions of the plane.
-/
namespace StrayTouch

-- Sums and products in a field are those of the field.
attribute [-instance] Scalar.toAdd Scalar.toSub Scalar.toMul Scalar.toDiv

noncomputable instance : Plane ℝ where
  pi := Real.pi
  hypot := fun x y => √(x ^ 2 + y ^ 2)
  atan2 := fun y x => Complex.arg ⟨x, y⟩
  toFloat := fun x => Float.ofInt ⌊x⌋

instance : Plane.Lawful ℝ where
  hypot_nonneg := fun x y => Real.sqrt_nonneg _
  hypot_mul := by
    intro k hk x y
    show √((k * x) ^ 2 + (k * y) ^ 2) = k * √(x ^ 2 + y ^ 2)
    rw [mul_pow, mul_pow, ← mul_add, Real.sqrt_mul (sq_nonneg k), Real.sqrt_sq hk.le]
  atan2_mul := by
    intro k hk y x
    have hscaled : (⟨k * x, k * y⟩ : ℂ) = k * ⟨x, y⟩ := by
      apply Complex.ext <;> simp
    show Complex.arg ⟨k * x, k * y⟩ = Complex.arg ⟨x, y⟩
    rw [hscaled, Complex.arg_real_mul _ hk]

instance : Plane.Principal ℝ where
  length_nonneg := fun _ _ => Real.sqrt_nonneg _
  pi_pos := Real.pi_pos
  neg_pi_le_atan2 := fun y x => (Complex.neg_pi_lt_arg ⟨x, y⟩).le
  atan2_le_pi := fun y x => Complex.arg_le_pi ⟨x, y⟩
  neg_pi_lt_atan2 := fun y x => Complex.neg_pi_lt_arg ⟨x, y⟩

instance : Plane.Metric ℝ where
  hypot_nonneg := fun _ _ => Real.sqrt_nonneg _
  hypot_eq_zero_iff := by
    intro x y
    show √(x ^ 2 + y ^ 2) = 0 ↔ x = 0 ∧ y = 0
    rw [Real.sqrt_eq_zero (add_nonneg (sq_nonneg x) (sq_nonneg y)),
      add_eq_zero_iff_of_nonneg (sq_nonneg x) (sq_nonneg y), sq_eq_zero_iff, sq_eq_zero_iff]
  hypot_sub_le := by
    intro x y u v
    have hnorm (a b : ℝ) : √(a ^ 2 + b ^ 2) = ‖(⟨a, b⟩ : ℂ)‖ :=
      (Complex.norm_eq_sqrt_sq_add_sq ⟨a, b⟩).symm
    show √((x - u) ^ 2 + (y - v) ^ 2) ≤ √(x ^ 2 + y ^ 2) + √(u ^ 2 + v ^ 2)
    rw [hnorm, hnorm, hnorm]
    exact norm_sub_le (⟨x, y⟩ : ℂ) ⟨u, v⟩

end StrayTouch
