import StrayTouch.Proofs.Number.Counting
import StrayTouch.Proofs.Number.Unsigned
import StrayTouch.Proofs.Scalar.Sum

/-!
Doubles that are whole numbers. Below the fifty-third power of two every count is a double, and sums
of counts are exact.
-/
namespace StrayTouch.Binary64

/-- A count below that bound is a double as it is. -/
theorem count_ofNat_exact {n : ℕ} (h : n < 2 ^ 53) :
    (form (Scalar.ofNat n)).count = WithTop.some (n * 2 ^ 1074) := by
  have hin : n * 2 ^ 1074 < rangeEnd := mul_two_pow_lt_rangeEnd h (by decide)
  rw [(count_ofNat n).2, rounded_of_mantissa h, capped, if_pos hin]

/-- Compared with anything, it is the whole number that it counts. -/
theorem exact_ofNat {n : ℕ} (h : n < 2 ^ 53) :
    exact (Scalar.ofNat n : Float) = .ofInt n := by
  have hfrom := (count_ofNat n).1
  have hcount := count_ofNat_exact h
  rw [exact]
  cases hf : form (Scalar.ofNat n) with
  | nan => exact (hf ▸ hfrom).elim
  | infinite negative => cases hf ▸ hcount
  | finite p =>
    rw [hf] at hfrom hcount
    obtain ⟨_, hlow, _⟩ := bounds_of_form hf
    have hmantissa : p.mantissa * 2 ^ (p.exponent + 1074).toNat = n * 2 ^ 1074 :=
      WithTop.coe_injective hcount
    have hsigned : p.signed * 2 ^ (p.exponent + 1074).toNat = (n : ℤ) * 2 ^ 1074 := by
      have hcast := congrArg (Nat.cast : ℕ → ℤ) hmantissa
      rw [Nat.cast_mul, Nat.cast_mul, Nat.cast_pow, Nat.cast_pow, Nat.cast_ofNat] at hcast
      rw [signed_of_nonneg ((signed_nonneg_iff p).mpr hfrom), hcast]
    have hrat : p.toRat = n := by
      rw [toRat_eq hlow, hsigned, Int.cast_mul, Int.cast_pow, Int.cast_ofNat, Int.cast_natCast]
      exact mul_div_cancel_right₀ _ (by positivity)
    exact congrArg Exact.finite hrat

/-- Counts below that bound are added as they are. -/
theorem ofNat_add_ofNat {m n : ℕ} (h : m + n < 2 ^ 53) :
    (Scalar.ofNat m : Float) + Scalar.ofNat n = Scalar.ofNat (m + n) := by
  rcases Nat.eq_zero_or_pos (m + n) with hzero | hpos
  · obtain ⟨rfl, rfl⟩ := Nat.add_eq_zero_iff.mp hzero
    decide +kernel
  · obtain ⟨hsum, hcount⟩ := count_add (count_ofNat m).1 (count_ofNat n).1
    have hm : m < 2 ^ 53 := (Nat.le_add_right m n).trans_lt h
    have hn : n < 2 ^ 53 := (Nat.le_add_left n m).trans_lt h
    have hin : (m + n) * 2 ^ 1074 < rangeEnd := mul_two_pow_lt_rangeEnd h (by decide)
    have hexact : (form ((Scalar.ofNat m : Float) + Scalar.ofNat n)).count =
        (form (Scalar.ofNat (m + n))).count := by
      rw [hcount, count_ofNat_exact hm, count_ofNat_exact hn, count_ofNat_exact h]
      show capped (rounded (m * 2 ^ 1074 + n * 2 ^ 1074)) = _
      rw [← Nat.add_mul, rounded_of_mantissa h, capped, if_pos hin]
    have hne : (form (Scalar.ofNat (m + n))).count ≠ WithTop.some 0 := by
      rw [count_ofNat_exact h]
      exact fun hz => mul_two_pow_ne_zero hpos 1074 (WithTop.coe_injective hz)
    exact eq_of_count (hsum.unsigned (hexact ▸ hne)) ((count_ofNat (m + n)).1.unsigned hne) hexact

/-- Sums of whole numbers are exact as long as they stay below that bound. -/
theorem exactly_ofNat : Scalar.Exactly (Scalar.ofNat : ℕ → Float) (· < 2 ^ 53) where
  zero := by decide +kernel
  add := ofNat_add_ofNat
  fits_left := fun h => (Nat.le_add_right _ _).trans_lt h

end StrayTouch.Binary64
