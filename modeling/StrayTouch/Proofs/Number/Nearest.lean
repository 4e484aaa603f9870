import StrayTouch.Proofs.Number.Rounding
import Mathlib.Algebra.Order.Field.Rat
import Mathlib.Algebra.Order.Field.Power
import Mathlib.Tactic.Linarith
import Mathlib.Tactic.Positivity

/-!
Where the range of the doubles ends: a quotient is too large for a double exactly from the middle
between the greatest double and the power of two that follows it.
-/
namespace StrayTouch.Binary64

/-- The middle between the greatest double and `2 ^ 1024`. It is the least number without a nearest
double, because a tie goes to the even mantissa. -/
def overflowBound : Nat := twoTo 1024 - twoTo 970

theorem overflowBound_eq : overflowBound = (2 ^ 54 - 1) * twoTo 970 := by
  rw [overflowBound, Nat.sub_mul, twoTo_eq_pow, twoTo_eq_pow, ← Nat.pow_add, Nat.one_mul]

/-- Two whole numbers compared at a power of two, which stands with the one or the other. -/
theorem mul_two_pow_le_iff (a b : ℕ) (l : ℤ) :
    a * 2 ^ l.toNat ≤ b * 2 ^ (-l).toNat ↔ (a : ℚ) * 2 ^ l ≤ b := by
  rw [← Nat.cast_le (α := ℚ)]
  push_cast
  rcases le_total 0 l with h | h
  · obtain ⟨k, rfl⟩ := Int.eq_ofNat_of_zero_le h
    simp
  · obtain ⟨k, hk⟩ := Int.eq_ofNat_of_zero_le (Int.neg_nonneg.mpr h)
    obtain rfl : l = -(k : ℤ) := by omega
    have hp : (0 : ℚ) < 2 ^ k := by positivity
    simp [← div_eq_mul_inv, div_le_iff₀ hp]

variable {num den : ℕ}

/-- The binary exponent of a quotient is that of its leading digit. -/
theorem binaryExponent_spec (hn : num ≠ 0) (hd : den ≠ 0) :
    (den : ℚ) * 2 ^ binaryExponent num den ≤ num ∧
      (num : ℚ) < den * 2 ^ (binaryExponent num den + 1) := by
  have hnl : (2 : ℚ) ^ num.log2 ≤ num := by exact_mod_cast Nat.log2_self_le hn
  have hnu : (num : ℚ) < 2 ^ (num.log2 + 1) := by exact_mod_cast Nat.lt_log2_self
  have hdl : (2 : ℚ) ^ den.log2 ≤ den := by exact_mod_cast Nat.log2_self_le hd
  have hdu : (den : ℚ) < 2 ^ (den.log2 + 1) := by exact_mod_cast Nat.lt_log2_self
  have hlow : (den : ℚ) * 2 ^ ((num.log2 : ℤ) - den.log2 - 1) ≤ num := by
    calc (den : ℚ) * 2 ^ ((num.log2 : ℤ) - den.log2 - 1)
        ≤ 2 ^ (den.log2 + 1) * 2 ^ ((num.log2 : ℤ) - den.log2 - 1) := by gcongr
      _ = 2 ^ num.log2 := by
        rw [← zpow_natCast, ← zpow_natCast, ← zpow_add₀ two_ne_zero]
        congr 1
        push_cast
        ring
      _ ≤ num := hnl
  have hhigh : (num : ℚ) < den * 2 ^ ((num.log2 : ℤ) - den.log2 + 1) := by
    calc (num : ℚ) < 2 ^ (num.log2 + 1) := hnu
      _ = 2 ^ den.log2 * 2 ^ ((num.log2 : ℤ) - den.log2 + 1) := by
        rw [← zpow_natCast, ← zpow_natCast, ← zpow_add₀ two_ne_zero]
        congr 1
        push_cast
        ring
      _ ≤ den * 2 ^ ((num.log2 : ℤ) - den.log2 + 1) := by gcongr
  unfold binaryExponent
  dsimp only
  rw [twoTo_eq_pow, twoTo_eq_pow]
  split_ifs with h
  · exact ⟨(mul_two_pow_le_iff den num _).mp h, hhigh⟩
  · rw [mul_two_pow_le_iff, not_le] at h
    exact ⟨hlow, by rwa [Int.sub_add_cancel]⟩

/-- Rounding reaches an even number from the half below it on. -/
theorem le_roundQuotient_iff {n d u : ℕ} (hu : u % 2 = 0) (hu' : 0 < u) (hd : 0 < d) :
    u ≤ roundQuotient n d ↔ (2 * u - 1) * d ≤ 2 * n := by
  have hn := Nat.div_add_mod n d
  have hr := Nat.mod_lt n hd
  have hsplit : (2 * u - 1) * d + d = 2 * (d * u) := by
    rw [← Nat.succ_mul, Nat.succ_eq_add_one, Nat.sub_add_cancel (by omega)]
    ring
  rcases lt_trichotomy (n / d + 1) u with h | h | h
  · have hq : d * (n / d + 2) ≤ d * u := Nat.mul_le_mul_left d h
    have hq' : d * (n / d + 2) = d * (n / d) + 2 * d := by ring
    have := roundQuotient_le_div_add_one n d
    constructor <;> omega
  · have hq : d * u = d * (n / d) + d := by rw [← h]; ring
    have hodd : n / d % 2 = 1 := by omega
    have hiff : u ≤ roundQuotient n d ↔ d ≤ 2 * (n % d) := by
      unfold roundQuotient
      dsimp only
      rw [hodd, if_neg (show ¬ (1 == 0) = true by decide)]
      split_ifs <;> omega
    rw [hiff]
    omega
  · have hq : d * u ≤ d * (n / d) := Nat.mul_le_mul_left d (by omega)
    have := div_le_roundQuotient n d
    constructor <;> omega

/-- The mantissa of a quotient with `2 ^ l` as its leading digit, at the exponent that a double
gives it. -/
theorem roundQuotient_bounds {l : ℤ} (hd : 0 < den) (hlow : (den : ℚ) * 2 ^ l ≤ num)
    (hhigh : (num : ℚ) < den * 2 ^ (l + 1)) {e : ℤ} (he : l - 52 ≤ e) :
    let mantissa := roundQuotient (num * twoTo (-e).toNat) (den * twoTo e.toNat)
    mantissa ≤ 2 ^ 53 ∧ (e = l - 52 → 2 ^ 52 ≤ mantissa) := by
  rw [twoTo_eq_pow, twoTo_eq_pow]
  have hpos : 0 < den * 2 ^ e.toNat := Nat.mul_pos hd (Nat.two_pow_pos _)
  refine ⟨roundQuotient_le hpos ?_, fun h => le_roundQuotient hpos ?_⟩
  · have hle : (num : ℚ) * 2 ^ (-e) ≤ (2 ^ 53 * den : ℕ) := by
      calc (num : ℚ) * 2 ^ (-e) ≤ den * 2 ^ (l + 1) * 2 ^ (-e) := by gcongr
        _ = den * 2 ^ (l + 1 - e) := by
          rw [mul_assoc, ← zpow_add₀ two_ne_zero, Int.sub_eq_add_neg]
        _ ≤ den * 2 ^ (53 : ℤ) := by
          gcongr
          · exact one_le_two
          · omega
        _ = (2 ^ 53 * den : ℕ) := by
          push_cast
          exact mul_comm _ _
    have h := (mul_two_pow_le_iff _ _ (-e)).mpr hle
    rwa [neg_neg, Nat.mul_assoc] at h
  · have hle : ((2 ^ 52 * den : ℕ) : ℚ) * 2 ^ e ≤ num := by
      calc ((2 ^ 52 * den : ℕ) : ℚ) * 2 ^ e = den * (2 ^ (52 : ℤ) * 2 ^ e) := by
            rw [Nat.cast_mul, mul_comm ((2 ^ 52 : ℕ) : ℚ), mul_assoc, Nat.cast_pow]
            rfl
        _ = den * 2 ^ l := by
          rw [← zpow_add₀ two_ne_zero, h, add_sub_cancel]
        _ ≤ num := hlow
    have h := (mul_two_pow_le_iff _ _ e).mpr hle
    rwa [Nat.mul_assoc] at h

/-- The fields put together stay in range up to the last exponent, where the mantissa must not have
been rounded up to `2 ^ 53`. -/
theorem assembled_lt_iff {mantissa : ℕ} {e : ℤ} (hmax : mantissa ≤ 2 ^ 53)
    (hmin : 971 ≤ e → 2 ^ 52 ≤ mantissa) :
    (if mantissa < twoTo 52 then mantissa
      else (e + 1075).toNat * twoTo 52 + (mantissa - twoTo 52)) < 2047 * twoTo 52 ↔
      e < 971 ∨ e = 971 ∧ mantissa < 2 ^ 53 := by
  obtain ⟨w, hw⟩ : ∃ w, w = twoTo 52 := ⟨_, rfl⟩
  rw [← hw]
  obtain rfl : w = 2 ^ 52 := hw
  split_ifs <;> omega

theorem overflowBound_pos : 0 < overflowBound := by
  rw [overflowBound_eq]
  exact Nat.mul_pos (by decide) (twoTo_pos _)

theorem overflowBound_cast : (overflowBound : ℚ) = (2 ^ 54 - 1) * 2 ^ (970 : ℤ) := by
  have hone : ((2 ^ 54 - 1 : ℕ) : ℚ) = 2 ^ 54 - 1 := by norm_num
  rw [overflowBound_eq, twoTo_eq_pow, Nat.cast_mul, Nat.cast_pow, hone]
  rfl

theorem two_zpow_le_overflowBound {k : ℤ} (h : k ≤ 1023) : (2 : ℚ) ^ k ≤ overflowBound := by
  calc (2 : ℚ) ^ k ≤ 2 ^ (53 + 970 : ℤ) := zpow_le_zpow_right₀ one_le_two h
    _ = 2 ^ (53 : ℤ) * 2 ^ (970 : ℤ) := zpow_add₀ two_ne_zero _ _
    _ ≤ (2 ^ 54 - 1) * 2 ^ (970 : ℤ) := by
      refine mul_le_mul_of_nonneg_right ?_ (by positivity)
      norm_num
    _ = overflowBound := overflowBound_cast.symm

theorem overflowBound_le_two_zpow {k : ℤ} (h : 1024 ≤ k) : (overflowBound : ℚ) ≤ 2 ^ k := by
  calc (overflowBound : ℚ) = (2 ^ 54 - 1) * 2 ^ (970 : ℤ) := overflowBound_cast
    _ ≤ 2 ^ (54 : ℤ) * 2 ^ (970 : ℤ) := by
      refine mul_le_mul_of_nonneg_right ?_ (by positivity)
      norm_num
    _ = 2 ^ (54 + 970 : ℤ) := (zpow_add₀ two_ne_zero _ _).symm
    _ ≤ 2 ^ k := zpow_le_zpow_right₀ one_le_two h

/-- At the last exponent the mantissa is rounded up to `2 ^ 53` from the bound on. -/
theorem roundQuotient_last_lt_iff (hd : 0 < den) :
    roundQuotient num (den * twoTo 971) < 2 ^ 53 ↔ num < overflowBound * den := by
  have hiff := le_roundQuotient_iff (n := num) (u := 2 ^ 53) (d := den * twoTo 971)
    (by decide) (by decide) (Nat.mul_pos hd (twoTo_pos _))
  have hhalf : (2 * 2 ^ 53 - 1) * (den * twoTo 971) = 2 * (overflowBound * den) := by
    rw [overflowBound_eq, twoTo_succ]
    ring
  rw [hhalf, Nat.mul_le_mul_left_iff two_pos] at hiff
  rw [← not_le, hiff, not_le]

/-- A quotient of whole numbers has a nearest double exactly below the bound. -/
theorem nearestBits?_eq_none_iff (hd : 0 < den) :
    nearestBits? num den = none ↔ overflowBound * den ≤ num := by
  by_cases hn : num = 0
  · have hpos := Nat.mul_pos overflowBound_pos hd
    simp [nearestBits?, hn, hpos.ne']
  have hden : (0 : ℚ) ≤ den := Nat.cast_nonneg den
  have hcast : overflowBound * den ≤ num ↔ (overflowBound : ℚ) * den ≤ num := by
    rw [← Nat.cast_mul, Nat.cast_le]
  obtain ⟨hlow, hhigh⟩ := binaryExponent_spec hn hd.ne'
  unfold nearestBits?
  rw [if_neg (by simpa using hn)]
  dsimp only
  generalize binaryExponent num den = l at hlow hhigh
  obtain ⟨hmax, hmin⟩ := roundQuotient_bounds hd hlow hhigh (le_max_left (l - 52) leastExponent)
  obtain ⟨e, he⟩ : ∃ e, e = max (l - 52) leastExponent := ⟨_, rfl⟩
  rw [← he] at hmax hmin ⊢
  unfold leastExponent at he
  rw [ite_eq_right_iff, assembled_lt_iff hmax fun h => hmin (by omega)]
  simp only [reduceCtorEq, imp_false]
  -- Only the last exponent leaves it to the mantissa.
  rcases lt_trichotomy l 1023 with hl | hl | hl
  · have hsmall : (num : ℚ) < overflowBound * den := by
      calc (num : ℚ) < den * 2 ^ (l + 1) := hhigh
        _ ≤ den * overflowBound :=
          mul_le_mul_of_nonneg_left (two_zpow_le_overflowBound (by omega)) hden
        _ = overflowBound * den := mul_comm _ _
    rw [hcast, ← not_lt, not_iff_not]
    exact iff_of_true (.inl (by omega)) hsmall
  · obtain rfl : e = 971 := by omega
    have hzero : num * twoTo (-971 : ℤ).toNat = num := Nat.mul_one num
    have hlast : (971 : ℤ).toNat = 971 := rfl
    rw [hzero, hlast, roundQuotient_last_lt_iff hd, ← not_lt]
    simp only [lt_irrefl, false_or, true_and]
  · have hlarge : (overflowBound : ℚ) * den ≤ num := by
      calc (overflowBound : ℚ) * den ≤ 2 ^ l * den :=
            mul_le_mul_of_nonneg_right (overflowBound_le_two_zpow (by omega)) hden
        _ = den * 2 ^ l := mul_comm _ _
        _ ≤ num := hlow
    exact iff_of_true (by omega) (hcast.mpr hlarge)

theorem nearest?_eq_none_iff {num : ℤ} (hd : 0 < den) :
    nearest? num den = none ↔ overflowBound * den ≤ num.natAbs := by
  rw [nearest?, Option.map_eq_none_iff, nearestBits?_eq_none_iff hd]

end StrayTouch.Binary64
