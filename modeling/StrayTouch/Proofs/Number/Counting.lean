import StrayTouch.Proofs.Number.Addition

/-!
Whole numbers as doubles. A count is made into a double by one rounding, so that a greater count is
no smaller a double.
-/
namespace StrayTouch.Binary64

open Float.Model Float.Model.UnpackedFloat

theorem roundWithAccuracy_eq_round {s : Sign} {m : ℕ} {e : ℤ}
    (h : e ≤ Format.binary64.targetExponent (totalExponent m e)) :
    roundWithAccuracy Format.binary64 s m e .exact = UnpackedFloat.round Format.binary64 s m e := by
  have hshift : (e - Format.binary64.targetExponent (totalExponent m e)).toNat = 0 := by omega
  simp only [UnpackedFloat.round, decreaseExponent, hshift]
  simp

/-- The conversion of a small number is a product with one, that of a large one is not. -/
theorem ofNat_of_lt {n : ℕ} (h : n < 2 ^ 53) :
    (Scalar.ofNat n : Float) = n.toUInt64.toFloat * Float.ofBits 0x3ff0000000000000 := by
  show Float.ofScientific n false 0 = _
  rw [Float.ofScientific, dif_pos ⟨h, by decide⟩]
  rfl

theorem ofNat_of_le {n : ℕ} (h : 2 ^ 53 ≤ n) :
    (Scalar.ofNat n : Float) = .ofModel (Float.Model.ofScientific n 0) := by
  show Float.ofScientific n false 0 = _
  rw [Float.ofScientific, dif_neg (fun hn => absurd hn.1 (Nat.not_lt.mpr h))]
  rfl

theorem unpack_one : (Float.ofBits 0x3ff0000000000000).toModel.unpack =
    .finite .positive (2 ^ 52) (-52) (by decide) := by
  rfl

theorem ofScientific_zero {n : ℕ} (hn : 0 < n) :
    UnpackedFloat.ofScientific Format.binary64 n 0 =
      roundWithAccuracy Format.binary64 .positive (n * 2 ^ 53) (-53) .exact := by
  have hlow : ¬ (0 : ℤ) < -((2 ^ Format.binary64.exponentBits : ℤ) + n.log2) := by
    have : (0 : ℤ) ≤ 2 ^ Format.binary64.exponentBits := by positivity
    omega
  have hhigh : ¬ (0 : ℤ) > 2 ^ Format.binary64.exponentBits := by decide
  have hbits : Format.binary64.mantissaBits = 53 := rfl
  have hsign : Sign.positive * Sign.positive = Sign.positive := rfl
  rw [UnpackedFloat.ofScientific, dif_neg hn.ne', if_neg hhigh, if_neg hlow, if_pos (le_refl 0)]
  simp only [UnpackedFloat.mul, Nat.shiftLeft_eq, hbits, hsign, Int.toNat_zero, Nat.pow_zero,
    Nat.mul_one, Int.add_zero]
  rfl

theorem count_ofNat_of_le {n : ℕ} (h : 2 ^ 53 ≤ n) :
    (form (Scalar.ofNat n)).FromZero ∧
      (form (Scalar.ofNat n)).count = capped (rounded (n * 2 ^ 1074)) := by
  have hn : 0 < n := (Nat.two_pow_pos 53).trans_le h
  have htarget : (-53 : ℤ) ≤
      Format.binary64.targetExponent (totalExponent (n * 2 ^ 53) (-53)) := by
    rw [targetExponent_eq, totalExponent, log2_mul_two_pow hn.ne']
    omega
  have hcount : n * 2 ^ 53 * 2 ^ ((-53 : ℤ) + 1074).toNat = n * 2 ^ 1074 := by
    rw [Nat.mul_assoc, ← Nat.pow_add]
    congr 2
  rw [ofNat_of_le h, Float.Model.ofScientific, ofScientific_zero hn,
    roundWithAccuracy_eq_round htarget, ← hcount]
  exact count_round (Nat.mul_pos hn (Nat.two_pow_pos 53)) (by decide)

theorem toFloat_toUInt64 {n : ℕ} (hn : 0 < n) (h : n < 2 ^ 53) :
    n.toUInt64.toFloat =
      .ofModel (.pack (UnpackedFloat.round Format.binary64 .positive n 0)) := by
  have hword : n.toUInt64.toNat = n := by
    show n % 2 ^ 64 = n
    omega
  show Float.ofModel (.pack (UnpackedFloat.normalize Format.binary64 (n.toUInt64.toNat : ℤ) 0
    .positive)) = _
  rw [hword, normalize_of_pos hn]

theorem mul_two_pow_ne_zero {n : ℕ} (hn : 0 < n) (k : ℕ) : n * 2 ^ k ≠ 0 :=
  Nat.mul_ne_zero hn.ne' (Nat.two_pow_pos k).ne'

theorem mul_two_pow_lt {n a : ℕ} (h : n < 2 ^ a) (k : ℕ) : n * 2 ^ k < 2 ^ (a + k) := by
  rw [Nat.pow_add]
  exact Nat.mul_lt_mul_of_pos_right h (Nat.two_pow_pos k)

theorem mul_two_pow_lt_rangeEnd {n k : ℕ} (h : n < 2 ^ 53) (hk : k ≤ 2045) :
    n * 2 ^ k < rangeEnd :=
  (mul_two_pow_lt h k).trans_le (two_pow_le_rangeEnd (by omega))

theorem lt_of_mul_two_pow_eq {m n a j k : ℕ} (hn : 0 < n) (hm : m < 2 ^ a)
    (h : m * 2 ^ j = n * 2 ^ k) : k < a + j := by
  have hle : 2 ^ k ≤ m * 2 ^ j := h ▸ Nat.le_mul_of_pos_left _ hn
  exact (Nat.pow_lt_pow_iff_right (by decide)).mp (hle.trans_lt (mul_two_pow_lt hm j))

/-- A small number as a double is finite and exact. -/
theorem unpack_toFloat {n : ℕ} (hn : 0 < n) (h : n < 2 ^ 53) :
    ∃ m e, ∃ hm : 0 < m, n.toUInt64.toFloat.toModel.unpack = .finite .positive m e hm ∧
      m * 2 ^ (e + 1074).toNat = n * 2 ^ 1074 := by
  obtain ⟨hzero, hcount⟩ := count_round hn (show (-1074 : ℤ) ≤ 0 by decide)
  have hin : n * 2 ^ 1074 < rangeEnd := mul_two_pow_lt_rangeEnd h (by decide)
  have hexact : capped (rounded (n * 2 ^ ((0 : ℤ) + 1074).toNat)) =
      WithTop.some (n * 2 ^ 1074) := by
    have hplace : ((0 : ℤ) + 1074).toNat = 1074 := rfl
    rw [rounded_of_mantissa h, hplace, capped, if_pos hin]
  rw [← toFloat_toUInt64 hn h, hexact] at hcount
  rw [← toFloat_toUInt64 hn h] at hzero
  rw [form_eq_formOf] at hzero hcount
  rcases unpacked_of_fromZero hzero with hu | ⟨s, hu⟩ | ⟨m, e, hm, hu⟩
  · rw [hu] at hcount
    cases hcount
  · rw [hu, formOf, count_zero] at hcount
    have hnil : 0 = n * 2 ^ 1074 := WithTop.coe_injective hcount
    exact absurd hnil.symm (mul_two_pow_ne_zero hn _)
  · rw [hu] at hcount
    exact ⟨m, e, hm, hu, WithTop.coe_injective hcount⟩

theorem count_ofNat_of_lt {n : ℕ} (hn : 0 < n) (h : n < 2 ^ 53) :
    (form (Scalar.ofNat n)).FromZero ∧
      (form (Scalar.ofNat n)).count = capped (rounded (n * 2 ^ 1074)) := by
  obtain ⟨m, e, hm, hu, hvalue⟩ := unpack_toFloat hn h
  obtain ⟨hlt, -⟩ := bounds_of_unpack hu
  have hlow : 1074 < 53 + (e + 1074).toNat := lt_of_mul_two_pow_eq hn hlt hvalue
  have htarget : e + -52 ≤
      Format.binary64.targetExponent (totalExponent (m * 2 ^ 52) (e + -52)) := by
    rw [targetExponent_eq, totalExponent, log2_mul_two_pow hm.ne']
    omega
  have hproduct : (Scalar.ofNat n : Float) = .ofModel (.pack
      (roundWithAccuracy Format.binary64 .positive (m * 2 ^ 52) (e + -52) .exact)) := by
    have hmul : n.toUInt64.toFloat * Float.ofBits 0x3ff0000000000000 =
        .ofModel (.pack (UnpackedFloat.mul Format.binary64 n.toUInt64.toFloat.toModel.unpack
          (Float.ofBits 0x3ff0000000000000).toModel.unpack)) := rfl
    rw [ofNat_of_lt h, hmul, hu, unpack_one]
    rfl
  have hcount : m * 2 ^ 52 * 2 ^ (e + -52 + 1074).toNat = n * 2 ^ 1074 := by
    have hsplit : (e + 1074).toNat = 52 + (e + -52 + 1074).toNat := by omega
    rw [← hvalue, hsplit, Nat.pow_add, Nat.mul_assoc]
  rw [hproduct, roundWithAccuracy_eq_round htarget, ← hcount]
  exact count_round (Nat.mul_pos hm (Nat.two_pow_pos 52)) (by omega)

theorem count_ofNat_zero : (form (Scalar.ofNat 0)).FromZero ∧
    (form (Scalar.ofNat 0)).count = capped (rounded (0 * 2 ^ 1074)) := by
  have hzero : form (Scalar.ofNat 0) = .finite ⟨false, 0, leastExponent⟩ := by rfl
  rw [hzero, count_zero, Nat.zero_mul, rounded_zero, capped_zero]
  exact ⟨.inl rfl, rfl⟩

/-- A count as a double is the count, rounded once. -/
theorem count_ofNat (n : ℕ) : (form (Scalar.ofNat n)).FromZero ∧
    (form (Scalar.ofNat n)).count = capped (rounded (n * 2 ^ 1074)) := by
  rcases Nat.eq_zero_or_pos n with rfl | hn
  · exact count_ofNat_zero
  · by_cases h : n < 2 ^ 53
    · exact count_ofNat_of_lt hn h
    · exact count_ofNat_of_le (Nat.not_lt.mp h)

end StrayTouch.Binary64

namespace StrayTouch

open Binary64

instance : Scalar.Counting Float where
  ofNat_le := by
    intro m n h
    obtain ⟨hm, hmc⟩ := count_ofNat m
    obtain ⟨hn, hnc⟩ := count_ofNat n
    rw [le_iff hm hn, hmc, hnc]
    exact capped_mono (rounded_mono (Nat.mul_le_mul_right _ h))

end StrayTouch
