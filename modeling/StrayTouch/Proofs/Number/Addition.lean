import StrayTouch.Proofs.Number.Binary64
import StrayTouch.Proofs.Scalar

/-!
Doubles keep the order of sums. A double from zero on counts so many of the least positive one, or
is infinite; the count of a sum is the sum of the counts, rounded, or infinite if that is too large.
-/
namespace StrayTouch.Binary64

open Float.Model Float.Model.UnpackedFloat

/-- The number of least positive doubles in a double from zero on. -/
def Form.count : Form → WithTop ℕ
  | finite p => WithTop.some (p.mantissa * 2 ^ (p.exponent + 1074).toNat)
  | _ => ⊤

def Form.FromZero : Form → Prop
  | finite p => p.negative = false ∨ p.mantissa = 0
  | infinite negative => negative = false
  | nan => False

theorem toRat_eq {p : Parts} (h : -1074 ≤ p.exponent) :
    p.toRat = (p.signed * 2 ^ (p.exponent + 1074).toNat : ℤ) / 2 ^ 1074 := by
  have hpow : (2 : ℚ) ^ p.exponent.toNat * 2 ^ 1074 =
      2 ^ (p.exponent + 1074).toNat * 2 ^ (-p.exponent).toNat := by
    rw [← pow_add, ← pow_add]
    congr 1
    omega
  have hnum : ((if p.negative then -(p.numerator : ℤ) else p.numerator : ℤ) : ℚ) =
      p.signed * 2 ^ p.exponent.toNat := by
    unfold Parts.numerator Parts.signed
    rw [twoTo_eq_pow]
    split <;> push_cast <;> simp
  rw [Parts.toRat, Rat.mkRat_eq_div, hnum, Parts.denominator, twoTo_eq_pow, Nat.cast_pow,
    div_eq_div_iff (by positivity) (by positivity)]
  push_cast
  rw [mul_assoc, hpow, mul_assoc]

theorem signed_nonneg_iff (p : Parts) :
    0 ≤ p.signed ↔ p.negative = false ∨ p.mantissa = 0 := by
  unfold Parts.signed
  cases p.negative <;> simp

theorem signed_of_nonneg {p : Parts} (h : 0 ≤ p.signed) : p.signed = p.mantissa := by
  unfold Parts.signed at h ⊢
  split <;> simp_all

theorem exact_zero : exact (Scalar.zero : Float) = .finite 0 := by
  decide +kernel

theorem zero_le_iff (x : Float) : Scalar.le (Scalar.zero : Float) x = true ↔ (form x).FromZero := by
  have hle : Scalar.le (Scalar.zero : Float) x = (exact (Scalar.zero : Float)).le (exact x) := rfl
  rw [hle, exact_zero, exact, Form.FromZero.eq_def]
  cases hf : form x with
  | nan => simp [Exact.le]
  | infinite negative => cases negative <;> simp [Exact.le]
  | finite p =>
    obtain ⟨_, hlow, _⟩ := bounds_of_form hf
    have hp : (0 : ℚ) < 2 ^ 1074 := by positivity
    simp only [Exact.le, decide_eq_true_eq]
    rw [← signed_nonneg_iff, toRat_eq hlow, le_div_iff₀ hp, zero_mul, Int.cast_nonneg_iff]
    exact mul_nonneg_iff_of_pos_right (by positivity)

theorem le_iff {x y : Float} (hx : (form x).FromZero) (hy : (form y).FromZero) :
    Scalar.le x y = true ↔ (form x).count ≤ (form y).count := by
  have hle : Scalar.le x y = (exact x).le (exact y) := rfl
  rw [hle, exact, exact]
  cases hfx : form x with
  | nan => simp [hfx, Form.FromZero] at hx
  | infinite negative =>
    obtain rfl : negative = false := by simpa [hfx, Form.FromZero] using hx
    cases hfy : form y with
    | nan => simp [hfy, Form.FromZero] at hy
    | infinite negative =>
      obtain rfl : negative = false := by simpa [hfy, Form.FromZero] using hy
      simp [Exact.le, Form.count]
    | finite q => exact iff_of_false (by simp [Exact.le]) (WithTop.not_top_le_coe _)
  | finite p =>
    cases hfy : form y with
    | nan => simp [hfy, Form.FromZero] at hy
    | infinite negative =>
      obtain rfl : negative = false := by simpa [hfy, Form.FromZero] using hy
      simp [Exact.le, Form.count]
    | finite q =>
      rw [hfx, Form.FromZero, ← signed_nonneg_iff] at hx
      rw [hfy, Form.FromZero, ← signed_nonneg_iff] at hy
      obtain ⟨_, hp, _⟩ := bounds_of_form hfx
      obtain ⟨_, hq, _⟩ := bounds_of_form hfy
      have hpow : (0 : ℚ) < 2 ^ 1074 := by positivity
      simp only [Exact.le, decide_eq_true_eq, Form.count, WithTop.coe_le_coe]
      rw [toRat_eq hp, toRat_eq hq, div_le_div_iff_of_pos_right hpow, signed_of_nonneg hx,
        signed_of_nonneg hy, Int.cast_le, ← Int.ofNat_le]
      push_cast
      rfl

def rangeEnd : ℕ := twoTo 2098

theorem rangeEnd_le_two_pow {k : ℕ} (h : 2098 ≤ k) : rangeEnd ≤ 2 ^ k :=
  twoTo_le_twoTo h

theorem two_pow_le_rangeEnd {k : ℕ} (h : k ≤ 2098) : 2 ^ k ≤ rangeEnd :=
  twoTo_le_twoTo h

/-- A count, or infinity if it is beyond the range of the doubles. -/
def capped (n : ℕ) : WithTop ℕ :=
  if n < rangeEnd then WithTop.some n else ⊤

def plus : WithTop ℕ → WithTop ℕ → WithTop ℕ
  | some a, some b => capped (rounded (a + b))
  | _, _ => ⊤

theorem capped_mono {n m : ℕ} (h : n ≤ m) : capped n ≤ capped m := by
  unfold capped
  split_ifs
  · exact WithTop.coe_le_coe.mpr h
  · exact le_top
  · omega
  · exact le_top

theorem plus_mono {a b c d : WithTop ℕ} (hab : a ≤ b) (hcd : c ≤ d) : plus a c ≤ plus b d := by
  cases b with
  | top => exact le_top
  | coe b =>
    cases d with
    | top => exact le_top
    | coe d =>
      obtain ⟨a, rfl, ha⟩ := WithTop.le_coe_iff.mp hab
      obtain ⟨c, rfl, hc⟩ := WithTop.le_coe_iff.mp hcd
      exact capped_mono (rounded_mono (Nat.add_le_add ha hc))

theorem add_eq (x y : Float) :
    x + y = .ofModel (.pack (UnpackedFloat.add Format.binary64 x.toModel.unpack
      y.toModel.unpack)) := rfl

theorem unpacked_of_fromZero {u : UnpackedFloat} (h : (formOf u).FromZero) :
    u = .infinity .positive ∨ (∃ s, u = .zero s) ∨
      ∃ m e, ∃ hm : 0 < m, u = .finite .positive m e hm := by
  cases u with
  | notANumber => exact h.elim
  | infinity s =>
    cases s with
    | negative => cases h
    | positive => exact .inl rfl
  | zero s => exact .inr (.inl ⟨s, rfl⟩)
  | finite s m e hm =>
    cases s with
    | negative => exact absurd (h.resolve_left Bool.noConfusion) hm.ne'
    | positive => exact .inr (.inr ⟨m, e, hm, rfl⟩)

theorem mantissa_lt_rangeEnd_iff {m : ℕ} {e : ℤ} (hlt : m < 2 ^ 53) (hle : -1074 ≤ e)
    (hc : e = -1074 ∨ 2 ^ 52 ≤ m) : m * 2 ^ (e + 1074).toNat < rangeEnd ↔ e < 972 := by
  constructor
  · intro h
    by_contra he
    have hm : 2 ^ 52 ≤ m := hc.resolve_left (by omega)
    refine absurd h (not_lt.mpr ?_)
    calc rangeEnd ≤ 2 ^ (52 + (e + 1074).toNat) := rangeEnd_le_two_pow (by omega)
      _ = 2 ^ 52 * 2 ^ (e + 1074).toNat := Nat.pow_add 2 _ _
      _ ≤ m * 2 ^ (e + 1074).toNat := Nat.mul_le_mul_right _ hm
  · intro he
    calc m * 2 ^ (e + 1074).toNat
        < 2 ^ 53 * 2 ^ (e + 1074).toNat := Nat.mul_lt_mul_of_pos_right hlt (Nat.two_pow_pos _)
      _ = 2 ^ (53 + (e + 1074).toNat) := (Nat.pow_add 2 _ _).symm
      _ ≤ rangeEnd := two_pow_le_rangeEnd (by omega)

/-- What is packed of a positive mantissa has its count, if that is in range. -/
theorem count_pack {m : ℕ} {e : ℤ} (hm : 0 < m) (hlt : m < 2 ^ 53) (hle : -1074 ≤ e)
    (hc : e = -1074 ∨ 2 ^ 52 ≤ m) :
    (form (.ofModel (.pack (.finite .positive m e hm)))).FromZero ∧
      (form (.ofModel (.pack (.finite .positive m e hm)))).count =
        capped (m * 2 ^ (e + 1074).toNat) := by
  rw [form_pack_finite .positive hm hlt hle hc, capped]
  have hr := mantissa_lt_rangeEnd_iff hlt hle hc
  by_cases he : 972 ≤ e
  · rw [if_pos he, if_neg (mt hr.mp (by omega))]
    exact ⟨rfl, rfl⟩
  · rw [if_neg he, if_pos (hr.mpr (by omega))]
    exact ⟨.inl rfl, rfl⟩

theorem form_pack_infinity (s : Sign) :
    form (.ofModel (.pack (.infinity s))) = .infinite (isNegative s) := by
  rw [form_pack, UnpackedFloat.pack, packedInfinity, formOf_packComponents]
  rfl

theorem form_pack_zero (s : Sign) :
    form (.ofModel (.pack (.zero s))) = .finite ⟨isNegative s, 0, leastExponent⟩ := by
  rw [form_pack, UnpackedFloat.pack, packedZero, formOf_packComponents]
  rfl

theorem bounds_of_unpack {x : Float} {s : Sign} {m : ℕ} {e : ℤ} {hm : 0 < m}
    (h : x.toModel.unpack = .finite s m e hm) :
    m < 2 ^ 53 ∧ -1074 ≤ e ∧ e ≤ 971 ∧ (e = -1074 ∨ 2 ^ 52 ≤ m) :=
  bounds_of_form (p := ⟨isNegative s, m, e⟩) (by rw [form_eq_formOf, h]; rfl)

theorem normalize_of_pos {a : ℕ} (ha : 0 < a) (e : ℤ) :
    UnpackedFloat.normalize Format.binary64 a e .positive =
      UnpackedFloat.round Format.binary64 .positive a e := by
  have hc : compare (a : ℤ) 0 = .gt := Int.compare_eq_gt.mpr (by exact_mod_cast ha)
  rw [UnpackedFloat.normalize, hc]
  rfl

/-- A rounded number that is packed counts as the rounded count. -/
theorem count_round {m : ℕ} {e : ℤ} (hm : 0 < m) (he : -1074 ≤ e) :
    let f := form (.ofModel (.pack (UnpackedFloat.round Format.binary64 .positive m e)))
    f.FromZero ∧ f.count = capped (rounded (m * 2 ^ (e + 1074).toNat)) := by
  obtain ⟨f, g, hf, hr, hlt, hle, hc, hfg⟩ := round_eq (s := .positive) hm he
  intro form
  have hform : form = Binary64.form (.ofModel (.pack (.finite .positive f g hf))) := by rw [← hr]
  rw [hform, ← hfg]
  exact count_pack hf hlt hle hc

/-- The sum of two positive mantissas is their count, rounded. -/
theorem count_add_finite {m n : ℕ} {e k : ℤ} (hm : 0 < m) (hn : 0 < n) (he : -1074 ≤ e)
    (hk : -1074 ≤ k) :
    let f := form (.ofModel (.pack (UnpackedFloat.add Format.binary64
      (.finite .positive m e hm) (.finite .positive n k hn))))
    f.FromZero ∧ f.count =
      capped (rounded (m * 2 ^ (e + 1074).toNat + n * 2 ^ (k + 1074).toNat)) := by
  have hsum : UnpackedFloat.add Format.binary64 (.finite .positive m e hm)
      (.finite .positive n k hn) = UnpackedFloat.normalize Format.binary64
        ((m * 2 ^ (e - min e k).toNat + n * 2 ^ (k - min e k).toNat : ℕ) : ℤ) (min e k)
        .positive := by
    simp only [UnpackedFloat.add, decreaseExponent, Nat.shiftLeft_eq]
    rfl
  have hpos : 0 < m * 2 ^ (e - min e k).toNat + n * 2 ^ (k - min e k).toNat :=
    Nat.add_pos_left (Nat.mul_pos hm (Nat.two_pow_pos _)) _
  have hcount : (m * 2 ^ (e - min e k).toNat + n * 2 ^ (k - min e k).toNat) *
      2 ^ (min e k + 1074).toNat =
        m * 2 ^ (e + 1074).toNat + n * 2 ^ (k + 1074).toNat := by
    have hme : (e + 1074).toNat = (e - min e k).toNat + (min e k + 1074).toNat := by omega
    have hnk : (k + 1074).toNat = (k - min e k).toNat + (min e k + 1074).toNat := by omega
    rw [hme, hnk, Nat.pow_add, Nat.pow_add, Nat.add_mul, Nat.mul_assoc, Nat.mul_assoc]
  rw [hsum, normalize_of_pos hpos, ← hcount]
  exact count_round hpos (show -1074 ≤ min e k by omega)

theorem add_infinity {u : UnpackedFloat} (h : (formOf u).FromZero) :
    UnpackedFloat.add Format.binary64 (.infinity .positive) u = .infinity .positive ∧
      UnpackedFloat.add Format.binary64 u (.infinity .positive) = .infinity .positive := by
  rcases unpacked_of_fromZero h with rfl | ⟨s, rfl⟩ | ⟨m, e, hm, rfl⟩
  all_goals exact ⟨rfl, rfl⟩

theorem plus_top (a : WithTop ℕ) : plus a ⊤ = ⊤ := by
  cases a <;> rfl

theorem plus_comm (a b : WithTop ℕ) : plus a b = plus b a := by
  cases a with
  | top => exact (plus_top b).symm
  | coe a =>
    cases b with
    | top => rfl
    | coe b => exact congrArg (fun n => capped (rounded n)) (Nat.add_comm a b)

theorem plus_zero_of_rounded {n : ℕ} (h : rounded n = n) :
    plus (WithTop.some n) (WithTop.some 0) = capped n :=
  congrArg capped h

theorem capped_zero : capped 0 = WithTop.some 0 :=
  if_pos (twoTo_pos 2098)

theorem count_zero (negative : Bool) (e : ℤ) :
    (Form.finite ⟨negative, 0, e⟩).count = WithTop.some 0 :=
  congrArg WithTop.some (Nat.zero_mul _)

theorem form_zero : form (Scalar.zero : Float) = .finite ⟨false, 0, leastExponent⟩ := by
  rfl

theorem plus_zero (x : Float) :
    plus (form x).count (Form.finite ⟨false, 0, leastExponent⟩).count = (form x).count := by
  cases hf : form x with
  | nan => rfl
  | infinite negative => rfl
  | finite p =>
    obtain ⟨hlt, hle, hmax, hc⟩ := bounds_of_form hf
    have hr := (mantissa_lt_rangeEnd_iff hlt hle hc).mpr (by omega)
    rw [count_zero, Form.count, plus_zero_of_rounded (rounded_of_mantissa hlt), capped, if_pos hr]

theorem count_add {x y : Float} (hx : (form x).FromZero) (hy : (form y).FromZero) :
    (form (x + y)).FromZero ∧ (form (x + y)).count = plus (form x).count (form y).count := by
  rw [add_eq]
  rw [form_eq_formOf] at hx hy
  rw [form_eq_formOf x, form_eq_formOf y]
  rcases unpacked_of_fromZero hx with hu | ⟨s, hu⟩ | ⟨m, e, hm, hu⟩
  · rw [hu, (add_infinity hy).1, form_pack_infinity]
    exact ⟨rfl, rfl⟩
  · rcases unpacked_of_fromZero hy with hv | ⟨t, hv⟩ | ⟨n, k, hn, hv⟩
    · rw [hv, (add_infinity hx).2, form_pack_infinity]
      exact ⟨rfl, (plus_top _).symm⟩
    · have hz : ∃ z, UnpackedFloat.add Format.binary64 (.zero s) (.zero t) = .zero z := by
        cases s <;> cases t <;> exact ⟨_, rfl⟩
      obtain ⟨z, hz⟩ := hz
      rw [hu, hv, hz, form_pack_zero]
      refine ⟨.inr rfl, ?_⟩
      rw [formOf, formOf, count_zero, count_zero, count_zero, plus_zero_of_rounded rounded_zero,
        capped_zero]
    · obtain ⟨hlt, hle, hmax, hc⟩ := bounds_of_unpack hv
      have hsum : UnpackedFloat.add Format.binary64 (.zero s) (.finite .positive n k hn) =
          .finite .positive n k hn := rfl
      rw [hu, hv, hsum, formOf, count_zero, plus_comm, formOf, Form.count,
        plus_zero_of_rounded (rounded_of_mantissa hlt)]
      exact count_pack hn hlt hle hc
  · rcases unpacked_of_fromZero hy with hv | ⟨t, hv⟩ | ⟨n, k, hn, hv⟩
    · rw [hv, (add_infinity hx).2, form_pack_infinity]
      exact ⟨rfl, (plus_top _).symm⟩
    · obtain ⟨hlt, hle, hmax, hc⟩ := bounds_of_unpack hu
      have hsum : UnpackedFloat.add Format.binary64 (.finite .positive m e hm) (.zero t) =
          .finite .positive m e hm := rfl
      rw [hu, hv, hsum, formOf, formOf, count_zero, Form.count,
        plus_zero_of_rounded (rounded_of_mantissa hlt)]
      exact count_pack hm hlt hle hc
    · rw [hu, hv]
      obtain ⟨_, he, _⟩ := bounds_of_unpack hu
      obtain ⟨_, hk, _⟩ := bounds_of_unpack hv
      exact count_add_finite hm hn he hk

end StrayTouch.Binary64

namespace StrayTouch

open Binary64

theorem Exact.le_trans {a b c : Exact} (hab : a.le b = true) (hbc : b.le c = true) :
    a.le c = true := by
  cases a <;> cases b <;> cases c <;> simp_all [Exact.le]
  exact hab.trans hbc

theorem Exact.lt_of_lt_of_le {a b c : Exact} (hab : a.lt b = true) (hbc : b.le c = true) :
    a.lt c = true := by
  cases a <;> cases b <;> cases c <;> simp_all [Exact.le, Exact.lt]
  exact hab.trans_le hbc

theorem Exact.lt_of_le_of_lt {a b c : Exact} (hab : a.le b = true) (hbc : b.lt c = true) :
    a.lt c = true := by
  cases a <;> cases b <;> cases c <;> simp_all [Exact.le, Exact.lt]
  exact hab.trans_lt hbc

theorem Exact.le_of_lt {a b : Exact} (h : a.lt b = true) : a.le b = true := by
  cases a <;> cases b <;> simp_all [Exact.le, Exact.lt]
  exact h.le

theorem Exact.not_lt_of_le {a b : Exact} (h : a.le b = true) : b.lt a = false := by
  cases a <;> cases b <;> simp_all [Exact.le, Exact.lt]

instance : Scalar.Ordered Float where
  le_of_lt := Exact.le_of_lt
  lt_of_le_of_lt := Exact.lt_of_le_of_lt
  ltInt_of_le := Exact.lt_of_le_of_lt
  intLt_of_le := Exact.lt_of_lt_of_le

theorem isFinite_iff (x : Float) : Binary64.isFinite x = true ↔ ∃ q, exact x = .finite q := by
  unfold Binary64.isFinite exact
  cases form x with
  | finite p => simp
  | infinite negative => cases negative <;> simp
  | nan => simp

instance : Scalar.Monotone Float where
  le_trans := Exact.le_trans
  lt_of_lt_of_le := Exact.lt_of_lt_of_le
  le_of_not_lt := by
    intro x y hx hy h
    obtain ⟨p, hp⟩ := (isFinite_iff x).mp hx
    obtain ⟨q, hq⟩ := (isFinite_iff y).mp hy
    have hlt : (exact x).lt (exact y) = false := h
    show (exact y).le (exact x) = true
    rw [hp, hq] at *
    simpa [Exact.lt, Exact.le] using hlt
  isFinite_zero := by decide +kernel
  le_refl := by
    intro x hx
    have hz := (zero_le_iff x).mp hx
    exact (le_iff hz hz).mpr le_rfl
  zero_le_zero := by decide +kernel
  le_add_zero := by
    intro x hx
    rw [zero_le_iff] at hx
    have hz := (zero_le_iff Scalar.zero).mp (by decide +kernel)
    obtain ⟨hxz, hc⟩ := count_add hx hz
    rw [le_iff hx hxz, hc, form_zero]
    exact (plus_zero x).symm.le
  add_le_add := by
    intro x y u v hx hxy hu huv
    have hy := (zero_le_iff y).mp (Exact.le_trans hx hxy)
    have hv := (zero_le_iff v).mp (Exact.le_trans hu huv)
    rw [zero_le_iff] at hx hu
    obtain ⟨hxu, hc⟩ := count_add hx hu
    obtain ⟨hyv, hd⟩ := count_add hy hv
    rw [le_iff hxu hyv, hc, hd]
    exact plus_mono ((le_iff hx hy).mp hxy) ((le_iff hu hv).mp huv)

end StrayTouch
