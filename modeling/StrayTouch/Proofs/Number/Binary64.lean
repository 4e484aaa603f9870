import StrayTouch.Proofs.Number.Rounding
import Mathlib

/-!
Doubles by their fields. `Binary64.form` reads off a double what unpacking it gives, and a mantissa
with its exponent is read back as it was packed.
-/
namespace StrayTouch.Binary64

open Float.Model Float.Model.UnpackedFloat

/-- What the fields of a double stand for. -/
def ofFields (negative : Bool) (field fraction : Nat) : Form :=
  if field = 2047 then
    if fraction = 0 then .infinite negative else .nan
  else if field = 0 then
    .finite ⟨negative, fraction, leastExponent⟩
  else
    .finite ⟨negative, fraction + 2 ^ 52, (field : Int) - 1075⟩

def isNegative : Sign → Bool
  | .negative => true
  | .positive => false

def formOf : UnpackedFloat → Form
  | .infinity s => .infinite (isNegative s)
  | .notANumber => .nan
  | .zero s => .finite ⟨isNegative s, 0, leastExponent⟩
  | .finite s m e _ => .finite ⟨isNegative s, m, e⟩

theorem form_eq_ofFields (x : Float) :
    form x = ofFields (x.toBits.toNat / 2 ^ 63 == 1) (x.toBits.toNat / 2 ^ 52 % 2048)
      (x.toBits.toNat % 2 ^ 52) := by
  simp only [form, ofFields, twoTo_eq_pow, beq_iff_eq]

theorem bounds_of_ofFields {negative : Bool} {field fraction : Nat} {p : Parts}
    (hfield : field < 2048) (hfraction : fraction < 2 ^ 52)
    (h : ofFields negative field fraction = .finite p) :
    p.mantissa < 2 ^ 53 ∧ -1074 ≤ p.exponent ∧ p.exponent ≤ 971 ∧
      (p.exponent = -1074 ∨ 2 ^ 52 ≤ p.mantissa) := by
  unfold ofFields leastExponent at h
  split_ifs at h
  all_goals
    cases h
    dsimp only
    omega

theorem bounds_of_form {x : Float} {p : Parts} (h : form x = .finite p) :
    p.mantissa < 2 ^ 53 ∧ -1074 ≤ p.exponent ∧ p.exponent ≤ 971 ∧
      (p.exponent = -1074 ∨ 2 ^ 52 ≤ p.mantissa) :=
  bounds_of_ofFields (Nat.mod_lt _ (by decide)) (Nat.mod_lt _ (by decide))
    (form_eq_ofFields x ▸ h)

theorem toNat_one_append (m : BitVec 52) : (1#1 ++ m).toNat = m.toNat + 2 ^ 52 := by
  rw [BitVec.toNat_append, ← Nat.shiftLeft_add_eq_or_of_lt m.isLt, Nat.add_comm]
  rfl

theorem formOf_unpack (b : BitVec 64) :
    formOf (UnpackedFloat.unpack Format.binary64 b) =
      ofFields (isNegative (Sign.ofBitVec (@unpackSign Format.binary64 b)))
        (@unpackExponent Format.binary64 b).toNat
        (@unpackMantissa Format.binary64 b).toNat := by
  unfold UnpackedFloat.unpack ofFields
  simp only [← BitVec.toNat_inj, show (-1#11).toNat = 2047 from rfl,
    show (0#11).toNat = 0 from rfl, show (0#52).toNat = 0 from rfl]
  split_ifs with hall hnil hzero hnone
  · rfl
  · rfl
  · rw [formOf, hnone]
  · rw [formOf, hzero]
    rfl
  · rw [formOf, toNat_one_append]
    rfl

theorem toNat_unpackMantissa (b : BitVec 64) :
    (@unpackMantissa Format.binary64 b).toNat = b.toNat % 2 ^ 52 := by
  simp [unpackMantissa, BitVec.extractLsb_toNat]

theorem toNat_unpackExponent (b : BitVec 64) :
    (@unpackExponent Format.binary64 b).toNat = b.toNat / 2 ^ 52 % 2048 := by
  simp [unpackExponent, BitVec.extractLsb_toNat, Nat.shiftRight_eq_div_pow]

theorem toNat_unpackSign (b : BitVec 64) :
    (@unpackSign Format.binary64 b).toNat = b.toNat / 2 ^ 63 := by
  have h : b.toNat / 2 ^ 63 < 2 := Nat.div_lt_of_lt_mul b.isLt
  simpa [unpackSign, BitVec.extractLsb_toNat, Nat.shiftRight_eq_div_pow] using h

theorem isNegative_ofBitVec (b : BitVec 1) : isNegative (Sign.ofBitVec b) = (b.toNat == 1) := by
  rcases BitVec.eq_zero_or_eq_one b with rfl | rfl <;> rfl

/-- Taking a double apart by its fields is unpacking it. -/
theorem form_eq_formOf (x : Float) : form x = formOf x.toModel.unpack := by
  rw [form_eq_ofFields, Float.Model.unpack, formOf_unpack, isNegative_ofBitVec]
  rw [toNat_unpackSign, toNat_unpackExponent, toNat_unpackMantissa]
  rfl

theorem formOf_packComponents (s : Sign) (e : BitVec 11) (m : BitVec 52) :
    formOf (UnpackedFloat.unpack Format.binary64 (packComponents Format.binary64 s e m)) =
      ofFields (isNegative s) e.toNat m.toNat := by
  rw [formOf_unpack, unpackSign_packComponents, unpackExponent_packComponents,
    unpackMantissa_packComponents, Sign.ofBitVec_toBitVec]

theorem form_pack (u : UnpackedFloat) :
    form (.ofModel (.pack u)) =
      formOf (UnpackedFloat.unpack Format.binary64 (UnpackedFloat.pack Format.binary64 u)) :=
  form_eq_formOf _

/-- A mantissa and an exponent are stored as they are, unless the exponent is too large. -/
theorem form_pack_finite (s : Sign) {m : Nat} {e : Int} (hm : 0 < m) (hlt : m < 2 ^ 53)
    (hle : -1074 ≤ e) (hc : e = -1074 ∨ 2 ^ 52 ≤ m) :
    form (.ofModel (.pack (.finite s m e hm))) =
      if 972 ≤ e then .infinite (isNegative s) else .finite ⟨isNegative s, m, e⟩ := by
  have hbias : (e + Format.binary64.exponentBias + (52 : Nat)).toNat = (e + 1075).toNat := by
    congr 1
    exact Int.add_assoc e _ _
  rw [form_pack]
  simp only [UnpackedFloat.pack, hbias]
  by_cases ho : 972 ≤ e
  · have hover : 2 ^ 11 ≤ (e + 1075).toNat + 1 := by omega
    rw [if_pos hover, if_pos ho, packedInfinity, formOf_packComponents]
    rfl
  have hin : ¬ 2 ^ 11 ≤ (e + 1075).toNat + 1 := by omega
  rw [if_neg hin, if_neg ho]
  by_cases hn : 2 ^ 52 ≤ m
  · have hlog : m.log2 + 1 = Format.binary64.mantissaBits := by
      have := (Nat.log2_lt hm.ne').mpr hlt
      have := (Nat.le_log2 hm.ne').mpr hn
      show m.log2 + 1 = 53
      omega
    have hfield : (BitVec.ofNat 11 (e + 1075).toNat).toNat = (e + 1075).toNat := by
      rw [BitVec.toNat_ofNat, Nat.mod_eq_of_lt (by omega)]
    have hfraction : (BitVec.ofNat 52 m).toNat = m - 2 ^ 52 := by
      rw [BitVec.toNat_ofNat, Nat.mod_eq_sub_mod hn, Nat.mod_eq_of_lt (by omega)]
    have hmantissa : m - 2 ^ 52 + 2 ^ 52 = m := Nat.sub_add_cancel hn
    have hexponent : ((e + 1075).toNat : Int) - 1075 = e := by omega
    rw [if_pos hlog, formOf_packComponents, hfield, hfraction, ofFields, if_neg (by omega),
      if_neg (by omega), hmantissa, hexponent]
  · have hlog : ¬ m.log2 + 1 = Format.binary64.mantissaBits := by
      have := (Nat.log2_lt hm.ne').mpr (not_le.mp hn)
      show ¬ m.log2 + 1 = 53
      omega
    have hfraction : (BitVec.ofNat 52 m).toNat = m := by
      rw [BitVec.toNat_ofNat, Nat.mod_eq_of_lt (not_le.mp hn)]
    rw [if_neg hlog, formOf_packComponents, hfraction, hc.resolve_right hn]
    rfl
end StrayTouch.Binary64
