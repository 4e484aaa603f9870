import StrayTouch.Proofs.Number.Length
import StrayTouch.Proofs.Number.Nearest

/-!
Quotients of whole numbers as doubles, at the lower end of their range: rounding loses no quotient
that is at least the least normal double, so that none of these becomes zero.
-/
namespace StrayTouch.Binary64

variable {num den bits : ℕ} {x : Float}

theorem neg_le_binaryExponent {k : ℕ} (hn : num ≠ 0) (hd : den ≠ 0) (h : den ≤ num * twoTo k) :
    -(k : ℤ) ≤ binaryExponent num den := by
  obtain ⟨_, hhigh⟩ := binaryExponent_spec hn hd
  have hlow : (den : ℚ) * 2 ^ (-(k : ℤ)) ≤ num := by
    refine (mul_two_pow_le_iff den num _).mp ?_
    rwa [Int.toNat_neg_natCast, Int.neg_neg, Int.toNat_natCast, Nat.pow_zero, Nat.mul_one,
      ← twoTo_eq_pow]
  by_contra hl
  have hsmall : (den : ℚ) * 2 ^ (binaryExponent num den + 1) ≤ den * 2 ^ (-(k : ℤ)) :=
    mul_le_mul_of_nonneg_left (zpow_le_zpow_right₀ one_le_two (by omega)) (Nat.cast_nonneg den)
  exact (hhigh.trans_le hsmall).not_ge hlow

/-- A quotient from the least normal double on has the bits of a normal double. -/
theorem le_of_nearestBits? (h : nearestBits? num den = some bits) (hn : num ≠ 0) (hd : den ≠ 0)
    (hle : den ≤ num * twoTo 1022) : 2 ^ 52 ≤ bits := by
  have hnormal := neg_le_binaryExponent hn hd hle
  obtain ⟨hlow, hhigh⟩ := binaryExponent_spec hn hd
  unfold nearestBits? at h
  rw [if_neg (by simpa using hn)] at h
  dsimp only at h
  generalize binaryExponent num den = l at h hnormal hlow hhigh
  have he : max (l - 52) leastExponent = l - 52 := max_eq_left (by unfold leastExponent; omega)
  obtain ⟨_, hfull⟩ := roundQuotient_bounds (Nat.pos_of_ne_zero hd) hlow hhigh (le_refl (l - 52))
  replace hfull := hfull rfl
  rw [he] at h
  generalize roundQuotient _ _ = mantissa at h hfull
  obtain ⟨_, hbits⟩ := Option.ite_none_right_eq_some.mp h
  rw [if_neg (by rw [twoTo_eq_pow]; omega)] at hbits
  obtain rfl := Option.some.inj hbits
  have hfield : 1 ≤ (l - 52 + 1075).toNat := by omega
  rw [twoTo_eq_pow]
  exact (Nat.le_mul_of_pos_left _ hfield).trans (Nat.le_add_right _ _)

theorem zero_lt_of_form {p : Parts} (hf : form x = .finite p) (hsign : p.negative = false)
    (hm : 0 < p.mantissa) : Scalar.lt Scalar.zero x = true := by
  have hlt : Scalar.lt Scalar.zero x = (exact (Scalar.zero : Float)).lt (exact x) := rfl
  obtain ⟨_, hlow, _⟩ := bounds_of_form hf
  have hsigned : p.signed = p.mantissa := signed_of_nonneg ((signed_nonneg_iff p).mpr (.inl hsign))
  rw [hlt, exact_zero, exact, hf]
  refine decide_eq_true ?_
  rw [toRat_eq hlow, hsigned]
  positivity

/-- The nearest double to a quotient from the least normal double on is over zero. -/
theorem zero_lt_of_nearest? {num : ℤ} (h : nearest? num den = some x) (hn : 0 < num)
    (hd : den ≠ 0) (hle : den ≤ num.natAbs * twoTo 1022) : Scalar.lt Scalar.zero x = true := by
  obtain ⟨bits, hbits, hform⟩ := form_of_nearest? hn.le h
  have hlow := le_of_nearestBits? hbits (Int.natAbs_ne_zero.mpr hn.ne') hd hle
  have hhigh := lt_of_nearestBits? hbits
  rw [ofFields, if_neg (by omega), if_neg (by omega)] at hform
  exact zero_lt_of_form hform rfl (Nat.add_pos_right _ (Nat.two_pow_pos 52))

end StrayTouch.Binary64
