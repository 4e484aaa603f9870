import StrayTouch.Number.Binary64
import Mathlib.Data.Nat.Log
import Mathlib.Tactic.Ring

/-!
Rounding of whole numbers to a mantissa of fifty-three bits. A double counts so many of the least
positive one, and a sum of doubles is the exact sum of these counts, rounded.
-/
namespace StrayTouch

theorem twoTo_eq_pow (n : Nat) : twoTo n = 2 ^ n := rfl

theorem twoTo_le_twoTo {n m : Nat} (h : n ≤ m) : twoTo n ≤ twoTo m :=
  Nat.pow_le_pow_right (by decide) h

namespace Binary64

variable {n m d : Nat}

theorem div_le_roundQuotient (n d : Nat) : n / d ≤ roundQuotient n d := by
  unfold roundQuotient
  dsimp only
  split_ifs <;> omega

theorem roundQuotient_le_div_add_one (n d : Nat) : roundQuotient n d ≤ n / d + 1 := by
  unfold roundQuotient
  dsimp only
  split_ifs <;> omega

theorem roundQuotient_eq_div (h : n % d = 0) (hd : 0 < d) : roundQuotient n d = n / d := by
  unfold roundQuotient
  simp [h, hd]

theorem roundQuotient_mono (h : n ≤ m) (d : Nat) : roundQuotient n d ≤ roundQuotient m d := by
  rcases (Nat.div_le_div_right (c := d) h).lt_or_eq with hq | hq
  · exact (roundQuotient_le_div_add_one n d).trans (hq.trans_le (div_le_roundQuotient m d))
  · have hn := Nat.div_add_mod n d
    have hm := Nat.div_add_mod m d
    rw [hq] at hn
    have hr : n % d ≤ m % d := by omega
    unfold roundQuotient
    dsimp only
    rw [hq]
    split_ifs <;> omega

theorem roundQuotient_mul_right (n d : Nat) {c : Nat} (hc : 0 < c) :
    roundQuotient (n * c) (d * c) = roundQuotient n d := by
  have hlt : 2 * (n % d * c) < d * c ↔ 2 * (n % d) < d := by
    rw [← Nat.mul_assoc]
    exact Nat.mul_lt_mul_right hc
  have hgt : d * c < 2 * (n % d * c) ↔ d < 2 * (n % d) := by
    rw [← Nat.mul_assoc]
    exact Nat.mul_lt_mul_right hc
  unfold roundQuotient
  simp only [Nat.mul_div_mul_right _ _ hc, Nat.mul_mod_mul_right, hlt, hgt]

theorem roundQuotient_mul_self (q : Nat) (hd : 0 < d) : roundQuotient (q * d) d = q := by
  rw [roundQuotient_eq_div (Nat.mul_mod_left q d) hd, Nat.mul_div_cancel q hd]

theorem roundQuotient_le {u : Nat} (hd : 0 < d) (h : n ≤ u * d) : roundQuotient n d ≤ u :=
  (roundQuotient_mono h d).trans_eq (roundQuotient_mul_self u hd)

theorem le_roundQuotient {l : Nat} (hd : 0 < d) (h : l * d ≤ n) : l ≤ roundQuotient n d :=
  (roundQuotient_mul_self l hd).symm.trans_le (roundQuotient_mono h d)

/-- A whole number rounded to fifty-three bits, a tie going to the even mantissa. -/
def rounded (n : Nat) : Nat :=
  roundQuotient n (2 ^ (n.log2 - 52)) * 2 ^ (n.log2 - 52)

theorem rounded_le (n : Nat) : rounded n ≤ 2 ^ (n.log2 + 1) := by
  have hn : n < 2 ^ (n.log2 + 1) := Nat.lt_log2_self
  by_cases h : n.log2 < 52
  · have hk : n.log2 - 52 = 0 := by omega
    have hr : rounded n = n := by simp [rounded, hk, roundQuotient_eq_div (Nat.mod_one n)]
    omega
  · have hsplit : 2 ^ (n.log2 + 1) = 2 ^ 53 * 2 ^ (n.log2 - 52) := by
      rw [← Nat.pow_add]
      congr 1
      omega
    rw [hsplit] at hn ⊢
    exact Nat.mul_le_mul_right _ (roundQuotient_le (Nat.two_pow_pos _) hn.le)

theorem le_rounded (h : n ≠ 0) : 2 ^ n.log2 ≤ rounded n := by
  have hn : 2 ^ n.log2 ≤ n := Nat.log2_self_le h
  by_cases hl : n.log2 < 52
  · have hk : n.log2 - 52 = 0 := by omega
    simpa [rounded, hk, roundQuotient_eq_div (Nat.mod_one n)] using hn
  · have hsplit : 2 ^ n.log2 = 2 ^ 52 * 2 ^ (n.log2 - 52) := by
      rw [← Nat.pow_add]
      congr 1
      omega
    rw [hsplit] at hn ⊢
    exact Nat.mul_le_mul_right _ (le_roundQuotient (Nat.two_pow_pos _) hn)

theorem rounded_zero : rounded 0 = 0 := by
  decide

/-- Rounding keeps the order: numbers of one length are rounded at one place, and between two
lengths lies a power of two, which none of them passes. -/
theorem rounded_mono (h : n ≤ m) : rounded n ≤ rounded m := by
  rcases Nat.eq_zero_or_pos n with rfl | hn
  · simp [rounded_zero]
  have hlog : n.log2 ≤ m.log2 := by
    rw [Nat.log2_eq_log_two, Nat.log2_eq_log_two]
    exact Nat.log_mono_right h
  rcases hlog.lt_or_eq with hlt | heq
  · exact (rounded_le n).trans ((Nat.pow_le_pow_right (by omega) hlt).trans
      (le_rounded (by omega)))
  · unfold rounded
    rw [heq]
    exact Nat.mul_le_mul_right _ (roundQuotient_mono h _)

/-- What has a mantissa of fifty-three bits is not changed. -/
theorem rounded_of_mantissa {k : Nat} (h : m < 2 ^ 53) : rounded (m * 2 ^ k) = m * 2 ^ k := by
  rcases Nat.eq_zero_or_pos m with rfl | hm
  · simp [rounded_zero]
  have hlt : m * 2 ^ k < 2 ^ (53 + k) := by
    rw [Nat.pow_add]
    exact Nat.mul_lt_mul_of_pos_right h (Nat.two_pow_pos k)
  have hlog := (Nat.log2_lt (Nat.mul_ne_zero hm.ne' (Nat.two_pow_pos k).ne')).mpr hlt
  have hdvd : 2 ^ ((m * 2 ^ k).log2 - 52) ∣ m * 2 ^ k :=
    Nat.dvd_trans (Nat.pow_dvd_pow 2 (by omega)) (Nat.dvd_mul_left _ _)
  rw [rounded, roundQuotient_eq_div (Nat.mod_eq_zero_of_dvd hdvd) (Nat.two_pow_pos _),
    Nat.div_mul_cancel hdvd]

open Float.Model Float.Model.UnpackedFloat

/-- Shifted to the right, a mantissa keeps in its two last bits how what is lost compares with one
half of its last place. -/
theorem shiftRight_bits (m k : Nat) :
    let em := (ExtendedMantissa.mk m false false) >>> k
    em.mantissa = m / 2 ^ k ∧ (em.roundBit = true ↔ 2 ^ k ≤ 2 * (m % 2 ^ k)) ∧
      (em.stickyBit = true ↔ 2 * (m % 2 ^ k) ≠ 0 ∧ 2 * (m % 2 ^ k) ≠ 2 ^ k) := by
  intro em
  induction k with
  | zero => simp [em, HShiftRight.hShiftRight, Nat.repeat, Nat.mod_one]
  | succ k ih =>
    obtain ⟨hm, hr, hs⟩ := ih
    have hstep : em = ((ExtendedMantissa.mk m false false) >>> k).shiftRightOne := rfl
    have hmod : m % 2 ^ (k + 1) = m % 2 ^ k + 2 ^ k * (m / 2 ^ k % 2) := by
      rw [Nat.pow_succ, Nat.mod_mul]
    have hlt : m % 2 ^ k < 2 ^ k := Nat.mod_lt _ (Nat.two_pow_pos k)
    have hdiv : m / 2 ^ (k + 1) = m / 2 ^ k / 2 := by
      rw [Nat.pow_succ, Nat.div_div_eq_div_mul]
    have hpow : 2 ^ (k + 1) = 2 * 2 ^ k := by rw [Nat.pow_succ, Nat.mul_comm]
    rw [hstep, ExtendedMantissa.shiftRightOne, hmod, hdiv, hpow]
    dsimp only
    rw [hm, Bool.or_eq_true, hr, hs, bne_iff_ne]
    refine ⟨rfl, ?_, ?_⟩
    all_goals
      rcases Nat.mod_two_eq_zero_or_one (m / 2 ^ k) with hb | hb
      all_goals
        rw [hb]
        omega

theorem roundedMantissa_shiftRight (m k : Nat) :
    ((ExtendedMantissa.mk m false false) >>> k).roundedMantissa = roundQuotient m (2 ^ k) := by
  obtain ⟨hm, hr, hs⟩ := shiftRight_bits m k
  have hlt : m % 2 ^ k < 2 ^ k := Nat.mod_lt _ (Nat.two_pow_pos k)
  generalize (ExtendedMantissa.mk m false false) >>> k = em at hm hr hs
  obtain ⟨q, r, s⟩ := em
  dsimp only at hm hr hs
  subst hm
  unfold roundQuotient ExtendedMantissa.roundedMantissa
  dsimp only
  cases r <;> cases s <;>
    simp only [ExtendedMantissa.accuracy, Accuracy.roundToNearestEven, Bool.false_eq_true,
      false_iff, true_iff, beq_iff_eq] at hr hs ⊢ <;>
    split_ifs <;> omega

theorem log2_mul_two_pow {m : Nat} (hm : m ≠ 0) (a : Nat) : (m * 2 ^ a).log2 = m.log2 + a := by
  have hp := Nat.two_pow_pos a
  refine (Nat.log2_eq_iff (Nat.mul_ne_zero hm hp.ne')).mpr ⟨?_, ?_⟩
  · rw [Nat.pow_add]
    exact Nat.mul_le_mul_right _ (Nat.log2_self_le hm)
  · rw [Nat.add_right_comm, Nat.pow_add]
    exact Nat.mul_lt_mul_of_pos_right Nat.lt_log2_self hp

theorem targetExponent_eq (x : Int) :
    Format.binary64.targetExponent x = max (x - 53) (-1074) := rfl

theorem shiftToTarget_of_lt {r : Nat} {t : Int} (hr : r < 2 ^ 53) (ht : -1074 ≤ t) :
    shiftToTargetExponent Format.binary64 r t .exact = (⟨r, false, false⟩, t) := by
  have hlog : r.log2 ≤ 52 := by
    rcases Nat.eq_zero_or_pos r with rfl | hp
    · decide
    · have := (Nat.log2_lt hp.ne').mpr hr
      omega
  have hshift : (Format.binary64.targetExponent (totalExponent r t) - t).toNat = 0 := by
    rw [targetExponent_eq, totalExponent]
    omega
  simp only [shiftToTargetExponent, shiftToExponent, hshift]
  simp [HShiftRight.hShiftRight, Nat.repeat, ExtendedMantissa.ofMantissaAndAccuracy]

theorem shiftToTarget_carry {t : Int} (ht : -1074 ≤ t) :
    shiftToTargetExponent Format.binary64 (2 ^ 53) t .exact =
      (⟨2 ^ 52, false, false⟩, t + 1) := by
  have hshift : (Format.binary64.targetExponent (totalExponent (2 ^ 53) t) - t).toNat = 1 := by
    rw [targetExponent_eq, totalExponent, Nat.log2_two_pow]
    omega
  simp only [shiftToTargetExponent, shiftToExponent, hshift]
  rfl

/-- Once the mantissa has been rounded, a second shift is needed only where it has grown by a
digit. -/
theorem roundWithAccuracy_exact {s : Sign} {m : Nat} {e t : Int}
    (htarget : Format.binary64.targetExponent (totalExponent m e) = t) (hle : e ≤ t)
    (ht : -1074 ≤ t) (hpos : 0 < roundQuotient m (2 ^ (t - e).toNat))
    (hmax : roundQuotient m (2 ^ (t - e).toNat) ≤ 2 ^ 53) :
    ∃ f g, ∃ hf : 0 < f, roundWithAccuracy Format.binary64 s m e .exact = .finite s f g hf ∧
      f < 2 ^ 53 ∧ t ≤ g ∧ (2 ^ 52 ≤ roundQuotient m (2 ^ (t - e).toNat) → 2 ^ 52 ≤ f) ∧
      (g = t ∨ 2 ^ 52 ≤ f) ∧
      f * 2 ^ (g - t).toNat = roundQuotient m (2 ^ (t - e).toNat) := by
  have hfirst : shiftToTargetExponent Format.binary64 m e .exact =
      ((⟨m, false, false⟩ : ExtendedMantissa) >>> (t - e).toNat, t) := by
    have hend : e + ((t - e).toNat : Int) = t := by omega
    rw [shiftToTargetExponent, htarget, shiftToExponent, hend]
    rfl
  unfold roundWithAccuracy
  rw [hfirst]
  dsimp only
  rw [roundedMantissa_shiftRight]
  generalize roundQuotient m (2 ^ (t - e).toNat) = r at hpos hmax
  rcases hmax.lt_or_eq with hlt | rfl
  · rw [shiftToTarget_of_lt hlt ht]
    refine ⟨r, t, hpos, ?_, hlt, le_refl t, id, .inl rfl, by simp⟩
    rw [dif_neg hpos.ne']
  · rw [shiftToTarget_carry ht]
    refine ⟨2 ^ 52, t + 1, by decide, ?_, by decide, by omega, fun _ => le_refl _,
      .inr (le_refl _), ?_⟩
    · exact dif_neg (show ¬ (2 ^ 52 : Nat) = 0 by decide)
    · have h1 : (t + 1 - t).toNat = 1 := by omega
      rw [h1]
      decide

/-- The mantissa at its target exponent, rounded there, counts as the rounded count. -/
theorem roundQuotient_target {m : Nat} {e t : Int} (he : -1074 ≤ e)
    (ht : (t + 1074).toNat = (m * 2 ^ (e + 1074).toNat).log2 - 52) (hlow : -1074 ≤ t) :
    roundQuotient (m * 2 ^ (e - t).toNat) (2 ^ (t - (e - (e - t).toNat)).toNat) *
      2 ^ (t + 1074).toNat = rounded (m * 2 ^ (e + 1074).toNat) := by
  obtain ⟨j, hj⟩ : ∃ j, (e + 1074).toNat = (e - t).toNat + j :=
    Nat.exists_eq_add_of_le (by omega)
  have hden : 2 ^ (t + 1074).toNat = 2 ^ (t - (e - (e - t).toNat)).toNat * 2 ^ j := by
    rw [← Nat.pow_add]
    congr 1
    omega
  have hnum : m * 2 ^ (e + 1074).toNat = m * 2 ^ (e - t).toNat * 2 ^ j := by
    rw [hj, Nat.pow_add, Nat.mul_assoc]
  rw [rounded, ← ht, hnum, hden, roundQuotient_mul_right _ _ (Nat.two_pow_pos j)]

/-- Rounding what counts so many of the least double gives the rounded count. -/
theorem round_eq {s : Sign} {m : Nat} {e : Int} (hm : 0 < m) (he : -1074 ≤ e) :
    ∃ f g, ∃ hf : 0 < f, UnpackedFloat.round Format.binary64 s m e = .finite s f g hf ∧
      f < 2 ^ 53 ∧ -1074 ≤ g ∧ (g = -1074 ∨ 2 ^ 52 ≤ f) ∧
      f * 2 ^ (g + 1074).toNat = rounded (m * 2 ^ (e + 1074).toNat) := by
  have hlogn : (m * 2 ^ (e + 1074).toNat).log2 = m.log2 + (e + 1074).toNat :=
    log2_mul_two_pow hm.ne' _
  obtain ⟨t, htdef⟩ : ∃ t, Format.binary64.targetExponent (totalExponent m e) = t := ⟨_, rfl⟩
  have ht : t = max ((m.log2 : Int) + 1 + e - 53) (-1074) := by
    rw [← htdef, targetExponent_eq, totalExponent]
  have hT : (t + 1074).toNat = (m * 2 ^ (e + 1074).toNat).log2 - 52 := by omega
  have hround : UnpackedFloat.round Format.binary64 s m e =
      roundWithAccuracy Format.binary64 s (m * 2 ^ (e - t).toNat) (e - (e - t).toNat) .exact := by
    rw [UnpackedFloat.round, htdef, decreaseExponent, Nat.shiftLeft_eq]
  have htarget : Format.binary64.targetExponent
      (totalExponent (m * 2 ^ (e - t).toNat) (e - (e - t).toNat)) = t := by
    rw [targetExponent_eq, totalExponent, log2_mul_two_pow hm.ne']
    omega
  have hn : m * 2 ^ (e + 1074).toNat ≠ 0 := Nat.mul_ne_zero hm.ne' (Nat.two_pow_pos _).ne'
  have hlow := le_rounded hn
  have hhigh := rounded_le (m * 2 ^ (e + 1074).toNat)
  rw [← roundQuotient_target he hT (by omega)] at hlow hhigh ⊢
  have hle : e - ((e - t).toNat : Int) ≤ t := by omega
  generalize m * 2 ^ (e + 1074).toNat = n at *
  generalize m * 2 ^ (e - t).toNat = m' at *
  generalize e - ((e - t).toNat : Int) = e' at *
  have hpos : 0 < roundQuotient m' (2 ^ (t - e').toNat) :=
    Nat.pos_of_mul_pos_right ((Nat.two_pow_pos _).trans_le hlow)
  have hmax : roundQuotient m' (2 ^ (t - e').toNat) ≤ 2 ^ 53 := by
    refine Nat.le_of_mul_le_mul_right (hhigh.trans ?_) (Nat.two_pow_pos (t + 1074).toNat)
    rw [← Nat.pow_add]
    exact Nat.pow_le_pow_right (by decide) (by omega)
  have hfull : t ≠ -1074 → 2 ^ 52 ≤ roundQuotient m' (2 ^ (t - e').toNat) := by
    intro hne
    refine Nat.le_of_mul_le_mul_right (le_trans ?_ hlow) (Nat.two_pow_pos (t + 1074).toNat)
    rw [← Nat.pow_add]
    exact Nat.pow_le_pow_right (by decide) (by omega)
  obtain ⟨f, g, hf, hr, hlt, htg, hkeep, hg, hfg⟩ :=
    roundWithAccuracy_exact (s := s) htarget hle (by omega) hpos hmax
  refine ⟨f, g, hf, hround.trans hr, hlt, by omega, ?_, ?_⟩
  · rcases hg with rfl | hg
    · by_cases hne : g = -1074
      · exact .inl hne
      · exact .inr (hkeep (hfull hne))
    · exact .inr hg
  · have hsplit : (g + 1074).toNat = (g - t).toNat + (t + 1074).toNat := by omega
    rw [hsplit, Nat.pow_add, ← Nat.mul_assoc, hfg]

end Binary64

end StrayTouch
