import StrayTouch.Proofs.Number.Unsigned
import StrayTouch.Proofs.Path.Rest

/-!
Lengths in doubles. The length of a vector is a double without a sign, or no number at all; zero
changes neither.
-/
namespace StrayTouch.Binary64

open Float.Model Float.Model.UnpackedFloat

/-- What is unpacked and packed again keeps its form. -/
theorem form_pack_unpack (b : BitVec 64) :
    form (.ofModel (.pack (UnpackedFloat.unpack Format.binary64 b))) =
      formOf (UnpackedFloat.unpack Format.binary64 b) := by
  have hfields := formOf_unpack b
  cases hu : UnpackedFloat.unpack Format.binary64 b with
  | notANumber => rfl
  | infinity s => exact form_pack_infinity s
  | zero s => exact form_pack_zero s
  | finite s m e hm =>
    rw [hu] at hfields
    obtain ⟨hlt, hle, hmax, hc⟩ := bounds_of_ofFields (BitVec.isLt _) (BitVec.isLt _) hfields.symm
    rw [form_pack_finite s hm hlt hle hc, if_neg (by omega)]
    rfl

theorem form_ofBits (b : UInt64) :
    form (Float.ofBits b) = ofFields (b.toNat / 2 ^ 63 == 1) (b.toNat / 2 ^ 52 % 2048)
      (b.toNat % 2 ^ 52) := by
  have hpack : form (Float.ofBits b) =
      form (.ofModel (.pack (UnpackedFloat.unpack Format.binary64 b.toBitVec))) := rfl
  rw [hpack, form_pack_unpack, formOf_unpack, isNegative_ofBitVec, toNat_unpackSign,
    toNat_unpackExponent, toNat_unpackMantissa]
  rfl

theorem unsigned_ofFields {field fraction : ℕ} (h : field < 2047) :
    (ofFields false field fraction).Unsigned := by
  rw [ofFields, if_neg (by omega)]
  split_ifs
  · rfl
  · rfl

theorem lt_of_nearestBits? {num den bits : ℕ} (h : nearestBits? num den = some bits) :
    bits < 2047 * 2 ^ 52 := by
  unfold nearestBits? at h
  split at h
  · obtain rfl := Option.some.inj h
    exact Nat.mul_pos (by decide) (Nat.two_pow_pos 52)
  · obtain ⟨hlt, hbits⟩ := Option.ite_none_right_eq_some.mp h
    rwa [Option.some.inj hbits, twoTo_eq_pow] at hlt

/-- The nearest double to a quotient of numbers from zero on has its bits, without a sign. -/
theorem form_of_nearest? {num : ℤ} {den : ℕ} {x : Float} (hnum : 0 ≤ num)
    (h : nearest? num den = some x) : ∃ bits, nearestBits? num.natAbs den = some bits ∧
      form x = ofFields false (bits / 2 ^ 52) (bits % 2 ^ 52) := by
  obtain ⟨bits, hbits, rfl⟩ := Option.map_eq_some_iff.mp h
  have hlt := lt_of_nearestBits? hbits
  have hnat : (UInt64.ofNat bits).toNat = bits := by
    refine UInt64.toNat_ofNat_of_lt' ?_
    show bits < 2 ^ 64
    omega
  have hsign : (bits / 2 ^ 63 == 1) = false := by
    rw [beq_eq_false_iff_ne]
    omega
  have hfield : bits / 2 ^ 52 % 2048 = bits / 2 ^ 52 := Nat.mod_eq_of_lt (by omega)
  refine ⟨bits, hbits, ?_⟩
  rw [if_neg (Int.not_lt.mpr hnum), form_ofBits, hnat, hsign, hfield]

theorem unsigned_of_nearest? {num : ℤ} {den : ℕ} {x : Float} (hnum : 0 ≤ num)
    (h : nearest? num den = some x) : (form x).Unsigned := by
  obtain ⟨bits, hbits, hform⟩ := form_of_nearest? hnum h
  have hlt := lt_of_nearestBits? hbits
  rw [hform]
  exact unsigned_ofFields (by omega)

/-- The forms of lengths: that of no negative number, nor of negative zero. -/
def Form.IsLength (f : Form) : Prop :=
  f.Unsigned ∨ f = .nan

theorem isLength_infinity : (form infinity).IsLength :=
  .inl rfl

theorem isLength_hypotenuse (x y : Float) : (form (hypotenuse x y)).IsLength := by
  unfold hypotenuse
  split
  · exact isLength_infinity
  · exact isLength_infinity
  · dsimp only
    generalize hroot : rootScaled? _ _ = root
    cases root with
    | none => exact isLength_infinity
    | some length => exact .inl (unsigned_of_nearest? (by positivity) hroot)
  · exact .inr rfl

theorem unpack_of_form_nan {x : Float} (h : form x = .nan) : x.toModel.unpack = .notANumber := by
  rw [form_eq_formOf] at h
  cases hu : x.toModel.unpack with
  | notANumber => rfl
  | infinity s => rw [hu] at h; cases h
  | zero s => rw [hu] at h; cases h
  | finite s m e hm => rw [hu] at h; cases h

theorem form_add_nan {x y : Float} (h : form x = .nan ∨ form y = .nan) : form (x + y) = .nan := by
  have hsum : UnpackedFloat.add Format.binary64 x.toModel.unpack y.toModel.unpack =
      .notANumber := by
    rcases h with h | h
    · rw [unpack_of_form_nan h]
      rfl
    · rw [unpack_of_form_nan h]
      cases x.toModel.unpack <;> rfl
  rw [add_eq, hsum]
  rfl

theorem Form.IsLength.add {x y : Float} (hx : (form x).IsLength) (hy : (form y).IsLength) :
    (form (x + y)).IsLength := by
  rcases hx with hx | hx
  · rcases hy with hy | hy
    · exact .inl (unsigned_add hx hy.fromZero)
    · exact .inr (form_add_nan (.inr hy))
  · exact .inr (form_add_nan (.inl hx))

theorem Form.IsLength.foldl_add {x : Float} {xs : List Float} (hx : (form x).IsLength)
    (hxs : ∀ y ∈ xs, (form y).IsLength) : (form (xs.foldl (· + ·) x)).IsLength := by
  induction xs generalizing x with
  | nil => exact hx
  | cons y ys ih =>
    obtain ⟨hy, hys⟩ := List.forall_mem_cons.mp hxs
    exact ih (hx.add hy) hys

theorem ofModel_pack_unpack (x : Float) : .ofModel (.pack x.toModel.unpack) = x :=
  Float.ofBits_toBits x

theorem Form.IsLength.add_zero {x : Float} (h : (form x).IsLength) : x + Scalar.zero = x := by
  rcases h with h | h
  · exact Binary64.add_zero h
  · have hsum : UnpackedFloat.add Format.binary64 x.toModel.unpack
        (Scalar.zero : Float).toModel.unpack = x.toModel.unpack := by
      rw [unpack_of_form_nan h]
      rfl
    rw [add_eq, hsum, ofModel_pack_unpack]

/-- A finite double less itself is zero, without a sign. -/
theorem sub_self {x : Float} (h : isFinite x = true) : x - x = Scalar.zero := by
  have hsub : x - x = .ofModel (.pack (UnpackedFloat.sub Format.binary64 x.toModel.unpack
      x.toModel.unpack)) := rfl
  rw [isFinite, form_eq_formOf] at h
  rw [hsub]
  cases hu : x.toModel.unpack with
  | notANumber => rw [hu] at h; cases h
  | infinity s => rw [hu] at h; cases h
  | zero s => cases s <;> rfl
  | finite s m e hm =>
    have hnothing : UnpackedFloat.sub Format.binary64 (.finite s m e hm) (.finite s m e hm) =
        .zero .positive := by
      simp only [UnpackedFloat.sub, Int.sub_self, UnpackedFloat.normalize]
      rfl
    rw [hnothing]
    rfl

end StrayTouch.Binary64

namespace StrayTouch

instance : Scalar.Still Float where
  sub_self := Binary64.sub_self
  hypot_zero := by decide +kernel
  not_lt_zero := by decide +kernel
  length_add_zero := fun steps => by
    refine Binary64.Form.IsLength.add_zero (Binary64.Form.IsLength.foldl_add (.inl rfl) ?_)
    exact List.forall_mem_map.mpr fun step _ => Binary64.isLength_hypotenuse step.1 step.2

end StrayTouch
