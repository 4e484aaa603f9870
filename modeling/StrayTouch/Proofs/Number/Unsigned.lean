import StrayTouch.Proofs.Number.Addition

/-!
Doubles without a sign: those from zero on, less negative zero. Each of them is known by its count,
and so is their sum, which zero does not change. A sum that begins at zero is one of them, although
it may add negative zeros.
-/
namespace StrayTouch.Binary64

open Float.Model Float.Model.UnpackedFloat

theorem ofFields_injective {s t : Bool} {e f m n : ℕ} (hm : m < 2 ^ 52) (hn : n < 2 ^ 52)
    (h : ofFields s e m = ofFields t f n) (hne : ofFields s e m ≠ .nan) :
    s = t ∧ e = f ∧ m = n := by
  unfold ofFields leastExponent at h hne
  split_ifs at h hne
  all_goals
    simp only [Form.finite.injEq, Form.infinite.injEq, Parts.mk.injEq, ne_eq,
      not_true_eq_false] at h hne
  all_goals
    first
    | exact ⟨h, by omega, by omega⟩
    | exact ⟨h.1, by omega, by omega⟩

/-- A double that is a number at all is known by its form. -/
theorem eq_of_form {x y : Float} (h : form x = form y) (hn : form x ≠ .nan) : x = y := by
  rw [form_eq_ofFields] at h hn
  rw [form_eq_ofFields] at h
  obtain ⟨hsign, hexponent, hfraction⟩ := ofFields_injective (Nat.mod_lt _ (Nat.two_pow_pos 52))
    (Nat.mod_lt _ (Nat.two_pow_pos 52)) h hn
  have hxlt := x.toBits.toNat_lt
  have hylt := y.toBits.toNat_lt
  have hnegative : x.toBits.toNat / 2 ^ 63 = 1 ↔ y.toBits.toNat / 2 ^ 63 = 1 := by
    simpa only [beq_iff_eq] using Bool.eq_iff_iff.mp hsign
  rw [← Float.toBits_inj, ← UInt64.toNat_inj]
  omega

/-- Mantissas in their place are known by what they count. -/
theorem exponent_le_of_count {m n : ℕ} {e k : ℤ} (hlt : m < 2 ^ 53) (he : -1074 ≤ e)
    (hk : k = -1074 ∨ 2 ^ 52 ≤ n)
    (h : m * 2 ^ (e + 1074).toNat = n * 2 ^ (k + 1074).toNat) : k ≤ e := by
  by_contra hlater
  have hn : 2 ^ 52 ≤ n := hk.resolve_left (by omega)
  have hsplit : (k + 1074).toNat = (k - e).toNat + (e + 1074).toNat := by omega
  rw [hsplit, Nat.pow_add, ← Nat.mul_assoc] at h
  have hm : m = n * 2 ^ (k - e).toNat := Nat.eq_of_mul_eq_mul_right (Nat.two_pow_pos _) h
  have hlow : 2 ^ 52 * 2 ^ 1 ≤ n * 2 ^ (k - e).toNat :=
    Nat.mul_le_mul hn (Nat.pow_le_pow_right (by decide) (by omega))
  omega

/-- The forms from zero on, less that of negative zero. -/
def Form.Unsigned : Form → Prop
  | finite p => p.negative = false
  | infinite negative => negative = false
  | nan => False

theorem Form.Unsigned.fromZero {f : Form} (h : f.Unsigned) : f.FromZero := by
  cases f with
  | finite p => exact .inl h
  | infinite negative => exact h
  | nan => exact h

theorem Form.FromZero.unsigned {f : Form} (h : f.FromZero) (hc : f.count ≠ WithTop.some 0) :
    f.Unsigned := by
  cases f with
  | finite p =>
    refine h.resolve_right fun hm => hc ?_
    rw [Form.count, hm, Nat.zero_mul]
  | infinite negative => exact h
  | nan => exact h

theorem unsigned_zero : (form (Scalar.zero : Float)).Unsigned :=
  form_zero ▸ rfl

variable {x y : Float}

/-- Finite doubles of one sign are known by what they count. -/
theorem parts_eq_of_count {p q : Parts} (hp : form x = .finite p) (hq : form y = .finite q)
    (hnegative : p.negative = q.negative)
    (h : p.mantissa * 2 ^ (p.exponent + 1074).toNat =
      q.mantissa * 2 ^ (q.exponent + 1074).toNat) : p = q := by
  obtain ⟨hplt, hple, _, hpc⟩ := bounds_of_form hp
  obtain ⟨hqlt, hqle, _, hqc⟩ := bounds_of_form hq
  have hexponent : p.exponent = q.exponent :=
    le_antisymm (exponent_le_of_count hqlt hqle hpc h.symm) (exponent_le_of_count hplt hple hqc h)
  have hmantissa : p.mantissa = q.mantissa := by
    rw [hexponent] at h
    exact Nat.eq_of_mul_eq_mul_right (Nat.two_pow_pos _) h
  cases p
  cases q
  simp_all

theorem eq_of_count (hx : (form x).Unsigned) (hy : (form y).Unsigned)
    (h : (form x).count = (form y).count) : x = y := by
  have hform : form x = form y := by
    cases hfx : form x with
    | nan => exact (hfx ▸ hx).elim
    | infinite negative =>
      rw [hfx] at hx h
      cases hfy : form y with
      | nan => exact (hfy ▸ hy).elim
      | infinite other =>
        rw [hfy] at hy
        exact congrArg Form.infinite (Eq.trans hx (Eq.symm hy))
      | finite q => exact (WithTop.coe_ne_top (hfy ▸ h).symm).elim
    | finite p =>
      rw [hfx] at hx h
      cases hfy : form y with
      | nan => exact (hfy ▸ hy).elim
      | infinite other => exact (WithTop.coe_ne_top (hfy ▸ h)).elim
      | finite q =>
        rw [hfy] at hy h
        exact congrArg Form.finite (parts_eq_of_count hfx hfy (Eq.trans hx (Eq.symm hy))
          (WithTop.coe_injective h))
  refine eq_of_form hform fun hn => ?_
  rw [hn] at hx
  exact hx

theorem eq_zero_of_count (hx : (form x).Unsigned) (h : (form x).count = WithTop.some 0) :
    x = Scalar.zero :=
  eq_of_count hx unsigned_zero (by rw [h, form_zero, count_zero])

theorem unpack_of_count_zero (hy : (form y).FromZero) (h : (form y).count = WithTop.some 0) :
    ∃ s, y.toModel.unpack = .zero s := by
  rw [form_eq_formOf] at hy h
  rcases unpacked_of_fromZero hy with hu | ⟨s, hu⟩ | ⟨m, e, hm, hu⟩
  · rw [hu] at h
    cases h
  · exact ⟨s, hu⟩
  · rw [hu] at h
    have hnil : m * 2 ^ (e + 1074).toNat = 0 := WithTop.coe_injective h
    exact absurd hnil (Nat.mul_pos hm (Nat.two_pow_pos _)).ne'

theorem count_eq_zero_of_plus {b : WithTop ℕ} (h : plus (form x).count b = WithTop.some 0) :
    (form x).count = WithTop.some 0 := by
  have hle : plus (form x).count (WithTop.some 0) ≤ plus (form x).count b :=
    plus_mono le_rfl bot_le
  rw [← count_zero false leastExponent, plus_zero, h] at hle
  exact le_bot_iff.mp hle

theorem unsigned_add (hx : (form x).Unsigned) (hy : (form y).FromZero) :
    (form (x + y)).Unsigned := by
  obtain ⟨hfrom, hcount⟩ := count_add hx.fromZero hy
  by_cases h : (form (x + y)).count = WithTop.some 0
  · -- Both terms are zeros, of which the first is not the negative one.
    rw [hcount] at h
    obtain ⟨s, hu⟩ :=
      unpack_of_count_zero hy (count_eq_zero_of_plus ((plus_comm _ _).trans h))
    have hsum : UnpackedFloat.add Format.binary64 (.zero .positive) (.zero s) =
        .zero .positive := by cases s <;> rfl
    have hunpack : (Scalar.zero : Float).toModel.unpack = .zero .positive := by rfl
    rw [eq_zero_of_count hx (count_eq_zero_of_plus h), add_eq, hunpack, hu, hsum, form_pack_zero]
    rfl
  · exact hfrom.unsigned h

theorem add_zero (hx : (form x).Unsigned) : x + Scalar.zero = x :=
  eq_of_count (unsigned_add hx unsigned_zero.fromZero) hx
    ((count_add hx.fromZero unsigned_zero.fromZero).2.trans (plus_zero x))

theorem zero_add (hx : (form x).Unsigned) : Scalar.zero + x = x :=
  eq_of_count (unsigned_add unsigned_zero hx.fromZero) hx
    ((count_add unsigned_zero.fromZero hx.fromZero).2.trans
      ((plus_comm _ _).trans (plus_zero x)))

theorem unsigned_foldl_add {xs : List Float} (hx : (form x).Unsigned)
    (h : ∀ y ∈ xs, Scalar.le Scalar.zero y = true) :
    (form (xs.foldl (· + ·) x)).Unsigned := by
  induction xs generalizing x with
  | nil => exact hx
  | cons y xs ih =>
    obtain ⟨hy, hxs⟩ := List.forall_mem_cons.mp h
    exact ih (unsigned_add hx ((zero_le_iff y).mp hy)) hxs

theorem unsigned_sum {xs : List Float} (h : ∀ x ∈ xs, Scalar.le Scalar.zero x = true) :
    (form (Scalar.sum xs)).Unsigned :=
  unsigned_foldl_add unsigned_zero h

/-- Of a number and zeros after it the sum is that number. -/
theorem sum_cons_replicate_zero (hx : (form x).Unsigned) (n : ℕ) :
    Scalar.sum (x :: List.replicate n Scalar.zero) = x := by
  have hzeros : (List.replicate n Scalar.zero).foldl (· + ·) x = x := by
    induction n with
    | zero => rfl
    | succ n ih => rw [List.replicate_succ, List.foldl_cons, add_zero hx, ih]
  rw [Scalar.sum, List.foldl_cons, zero_add hx, hzeros]

end StrayTouch.Binary64
