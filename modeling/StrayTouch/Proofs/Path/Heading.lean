import StrayTouch.Path.Heading
import StrayTouch.Proofs.Outcome
import StrayTouch.Proofs.Scalar.Real
import Mathlib.Algebra.Order.ToIntervalMod

/-!
Directions that are followed along a path, in exact arithmetic. A change of direction is followed as
the one that is the same up to whole turns and goes no further than half a turn either way; the
sense of half a turn is that of the difference of the raw directions.
-/
namespace StrayTouch.Path

-- Sums and products in a field are those of the field.
attribute [-instance] Scalar.toAdd Scalar.toSub Scalar.toMul Scalar.toDiv

open Plane AddCommGroup

variable {K : Type} [Field K] [LinearOrder K] [IsStrictOrderedRing K] [FloorRing K] [Plane K]
  [Plane.Directed K]

/-- The change of direction that is followed where the raw directions differ by `d`. -/
def change (d : K) : K :=
  d + correction d

theorem turn_pos : 0 < (turn : K) :=
  add_pos Directed.pi_pos Directed.pi_pos

omit [IsStrictOrderedRing K] [Plane.Directed K] in
theorem halfBack_eq : (halfBack : K) = -pi :=
  zero_sub pi

omit [Plane.Directed K] in
theorem isSmall_iff {d : K} : isSmall d = true ↔ |d| < pi := by
  rw [isSmall, Bool.and_eq_true, scalar_lt_iff, scalar_lt_iff, halfBack_eq, abs_lt]
  rfl

omit [IsStrictOrderedRing K] [Plane.Directed K] in
theorem neg_pi_add_turn : -pi + turn = (pi : K) :=
  neg_add_cancel_left pi pi

omit [IsStrictOrderedRing K] [Plane.Directed K] in
theorem neg_pi_modEq_pi : (-pi : K) ≡ pi [PMOD turn] :=
  modEq_iff_eq_add_zsmul.mpr ⟨1, by rw [one_zsmul, neg_pi_add_turn]⟩

theorem floorMod_turn (d : K) :
    Scalar.floorMod (d + Scalar.pi) turn + halfBack = toIcoMod turn_pos (-pi) d := by
  have hfloor : Scalar.floorMod (d + Scalar.pi) turn = d + pi - turn * ⌊(d + pi) / turn⌋ := rfl
  rw [hfloor, toIcoMod, toIcoDiv_eq_floor, sub_neg_eq_add, zsmul_eq_mul, halfBack_eq]
  ring

omit [Plane.Directed K] in
theorem change_of_small {d : K} (h : |d| < pi) : change d = d := by
  rw [change, correction, if_pos (isSmall_iff.mpr h)]
  exact add_zero d

theorem change_of_large {d : K} (h : ¬ |d| < pi) :
    change d = if toIcoMod turn_pos (-pi) d = -pi ∧ 0 < d then pi else toIcoMod turn_pos (-pi) d := by
  rw [change, correction, if_neg (mt isSmall_iff.mp h), add_sub_cancel, reduced, floorMod_turn]
  simp only [Bool.and_eq_true, scalar_lt_iff, scalar_le_iff, halfBack_eq, ← le_antisymm_iff]
  rfl

/-- Within half a turn either way, only the two half turns are the same up to whole turns. -/
theorem eq_or_opposite {x y : K} (h : x ≡ y [PMOD turn]) (hx : |x| ≤ pi) (hy : |y| ≤ pi) :
    x = y ∨ (x = pi ∧ y = -pi) ∨ (x = -pi ∧ y = pi) := by
  obtain ⟨k, hk⟩ := modEq_iff_eq_add_zsmul.mp h
  rw [zsmul_eq_mul] at hk
  have hturn : (turn : K) = pi + pi := rfl
  have hpos : 0 < (turn : K) := turn_pos
  rw [abs_le] at hx hy
  rcases lt_trichotomy k 0 with hneg | rfl | hpos'
  · have hle : (k : K) * turn ≤ -turn := by
      rw [← neg_one_mul]
      exact mul_le_mul_of_nonneg_right (by exact_mod_cast Int.le_sub_one_of_lt hneg) hpos.le
    exact .inr (.inl ⟨by linarith, by linarith⟩)
  · left
    simpa using hk.symm
  · have hle : turn ≤ (k : K) * turn :=
      le_mul_of_one_le_left hpos.le (by exact_mod_cast hpos')
    exact .inr (.inr ⟨by linarith, by linarith⟩)

theorem change_spec (d : K) : change d ≡ d [PMOD turn] ∧ |change d| ≤ pi ∧
    (change d = pi → 0 < d) ∧ (change d = -pi → d < 0) := by
  have hpi : 0 < (pi : K) := Directed.pi_pos
  by_cases hsmall : |d| < pi
  · rw [change_of_small hsmall]
    refine ⟨modEq_rfl, hsmall.le, fun h => h ▸ hpi, fun h => ?_⟩
    rw [h]
    exact neg_lt_zero.mpr hpi
  -- A whole number of turns is taken off, which leaves half a turn back where half a turn is meant.
  · have hback : toIcoMod turn_pos (-pi) d ≡ d [PMOD turn] :=
      modEq_iff_eq_add_zsmul.mpr ⟨_, (toIcoMod_add_toIcoDiv_zsmul turn_pos (-pi) d).symm⟩
    obtain ⟨hlow, hhigh⟩ := toIcoMod_mem_Ico (turn_pos (K := K)) (-pi) d
    replace hhigh := hhigh.trans_eq neg_pi_add_turn
    rw [change_of_large hsmall]
    split_ifs with hsense
    · obtain ⟨hhalf, hd⟩ := hsense
      refine ⟨?_, (abs_of_pos hpi).le, fun _ => hd, fun h => absurd h (neg_lt_self hpi).ne'⟩
      rw [hhalf] at hback
      exact neg_pi_modEq_pi.symm.trans hback
    · refine ⟨hback, abs_le.mpr ⟨hlow, hhigh.le⟩, fun h => absurd h hhigh.ne, fun h => ?_⟩
      have hne : d ≠ 0 := by
        rintro rfl
        exact hsmall (abs_zero.trans_lt hpi)
      exact lt_of_le_of_ne (not_lt.mp fun hd => hsense ⟨h, hd⟩) hne

/-- What is followed is known by four facts: it is the difference up to whole turns, it goes no
further than half a turn, and half a turn has the sense of the difference. -/
theorem change_eq_iff {d t : K} : change d = t ↔
    t ≡ d [PMOD turn] ∧ |t| ≤ pi ∧ (t = pi → 0 < d) ∧ (t = -pi → d < 0) := by
  constructor
  · rintro rfl
    exact change_spec d
  · rintro ⟨hmod, hle, hforth, hback⟩
    obtain ⟨hmod', hle', hforth', hback'⟩ := change_spec d
    rcases eq_or_opposite (hmod'.trans hmod.symm) hle' hle with h | ⟨h, ht⟩ | ⟨h, ht⟩
    · exact h
    · exact absurd (hforth' h) (hback ht).not_gt
    · exact absurd (hback' h) (hforth ht).not_gt

/-- What is no more than half a turn is followed as it is. -/
theorem change_of_le {d : K} (h : |d| ≤ pi) : change d = d :=
  change_eq_iff.mpr ⟨modEq_rfl, h, fun hd => hd ▸ Directed.pi_pos,
    fun hd => hd ▸ neg_lt_zero.mpr Directed.pi_pos⟩

omit [IsStrictOrderedRing K] [Plane.Directed K] in
/-- The next direction is the last one that was followed, changed. -/
theorem unwrapFrom_cons (previous shift a : K) (raws : List K) :
    unwrapFrom previous shift (a :: raws) =
      (previous + shift + change (a - previous)) ::
        unwrapFrom a (shift + correction (a - previous)) raws := by
  have hnext : a + (shift + correction (a - previous)) =
      previous + shift + change (a - previous) := by
    rw [change]
    ring
  rw [← hnext]
  rfl

theorem forall₂_unwrapFrom (previous : K) {shift : K} (hshift : 0 ≡ shift [PMOD turn])
    (raws : List K) :
    List.Forall₂ (fun raw angle => raw ≡ angle [PMOD turn]) raws
      (unwrapFrom previous shift raws) := by
  induction raws generalizing previous shift with
  | nil => exact .nil
  | cons a raws ih =>
    have hcorrection : 0 ≡ correction (a - previous) [PMOD turn] := by
      have hchange := (change_spec (a - previous)).1
      rw [change, add_modEq_left] at hchange
      exact hchange.symm
    have htotal : 0 ≡ shift + correction (a - previous) [PMOD turn] := by
      simpa using hshift.add hcorrection
    refine .cons ?_ (ih a htotal)
    simpa using htotal.add_left a

theorem isChain_unwrapFrom (previous shift : K) (raws : List K) :
    ((previous + shift) :: unwrapFrom previous shift raws).IsChain
      fun before after => |after - before| ≤ pi := by
  induction raws generalizing previous shift with
  | nil => exact .singleton _
  | cons a raws ih =>
    have hrest := ih a (shift + correction (a - previous))
    rw [unwrapFrom_cons]
    refine .cons_cons ?_ ?_
    · rw [add_sub_cancel_left]
      exact (change_spec _).2.1
    · convert hrest using 2
      rw [change]
      ring

theorem forall₂_unwrap (raws : List K) :
    List.Forall₂ (fun raw angle => raw ≡ angle [PMOD turn]) raws (unwrap raws) := by
  cases raws with
  | nil => exact .nil
  | cons a raws => exact .cons modEq_rfl (forall₂_unwrapFrom a modEq_rfl raws)

theorem isChain_unwrap (raws : List K) :
    (unwrap raws).IsChain fun before after => |after - before| ≤ pi := by
  cases raws with
  | nil => exact .nil
  | cons a raws =>
    have hchain := isChain_unwrapFrom a 0 raws
    rwa [add_zero] at hchain

theorem unwrapFrom_eq_self {previous : K} {raws : List K}
    (h : (previous :: raws).IsChain fun x y => |y - x| ≤ pi) : unwrapFrom previous 0 raws = raws := by
  induction raws generalizing previous with
  | nil => rfl
  | cons a raws ih =>
    obtain ⟨hstep, htail⟩ := List.isChain_cons_cons.mp h
    have hchange := change_of_le hstep
    have hcorrection : (0 : K) + correction (a - previous) = 0 := by
      rwa [change, add_eq_left, ← zero_add (correction _)] at hchange
    rw [unwrapFrom_cons, hcorrection, ih htail, hchange, add_zero, add_sub_cancel]

/-- Directions are followed as they are where none of them is more than half a turn from the one
before it. -/
theorem unwrap_eq_self {raws : List K} (h : raws.IsChain fun x y => |y - x| ≤ pi) :
    unwrap raws = raws := by
  cases raws with
  | nil => rfl
  | cons a raws => exact congrArg (a :: ·) (unwrapFrom_eq_self h)

/-- Raw directions are within half a turn either way, less the half turn back. -/
def IsPrincipal (x : K) : Prop :=
  -pi < x ∧ x ≤ pi

omit [FloorRing K] [Plane.Directed K] in
theorem IsPrincipal.abs_le_pi {x : K} (h : IsPrincipal x) : |x| ≤ pi :=
  abs_le.mpr ⟨h.1.le, h.2⟩

theorem IsPrincipal.eq_of_modEq {x y : K} (hx : IsPrincipal x) (hy : IsPrincipal y)
    (h : x ≡ y [PMOD turn]) : x = y := by
  rcases eq_or_opposite h hx.abs_le_pi hy.abs_le_pi with heq | ⟨_, hback⟩ | ⟨hback, _⟩
  · exact heq
  · exact absurd hback hy.1.ne'
  · exact absurd hback hx.1.ne'

/-- The segments that have a length. -/
def stretches (ps : List (K × K)) : List (K × K) :=
  (segments ps).filter fun step => reach step ≠ 0

omit [IsStrictOrderedRing K] in
/-- A move is a segment that has a length. -/
theorem moves_eq_stretches (ps : List (K × K)) : moves ps = stretches ps := by
  refine List.filter_congr fun step _ => ?_
  exact decide_eq_decide.mpr (Directed.length_nonneg step.1 step.2).lt_iff_ne'

/-- Every segment of a path that has a length gets one direction, in the order of the path. The
first is its raw direction, all others are theirs up to whole turns, and from one to the next the
direction changes by no more than half a turn. -/
theorem headings_follow_moves (ps : List (K × K)) :
    List.Forall₂ (fun step angle => ∃ k : ℤ, angle = atan2 step.2 step.1 + (k : K) * (2 * pi))
        (stretches ps) (headings ps) ∧
      (headings ps).head? = (stretches ps).head?.map (fun step => atan2 step.2 step.1) ∧
      (headings ps).IsChain fun before after => |after - before| ≤ pi := by
  have hraw : rawHeadings ps = (stretches ps).map fun step => atan2 step.2 step.1 :=
    congrArg (List.map fun step : K × K => atan2 step.2 step.1) (moves_eq_stretches ps)
  refine ⟨?_, ?_, isChain_unwrap _⟩
  · have hfollow := forall₂_unwrap (rawHeadings ps)
    rw [hraw, List.forall₂_map_left_iff, ← hraw] at hfollow
    refine hfollow.imp fun step angle h => ?_
    obtain ⟨k, hk⟩ := modEq_iff_eq_add_zsmul.mp h
    refine ⟨k, hk.trans ?_⟩
    rw [zsmul_eq_mul, two_mul]
    rfl
  · have hhead (raws : List K) : (unwrap raws).head? = raws.head? := by
      cases raws <;> rfl
    rw [headings, hhead, hraw, List.head?_map]

/-- To the right, to rest, back to the left, and up. -/
noncomputable def thereAndBack : List (ℝ × ℝ) :=
  [(0, 0), (1, 0), (1, 0), (0, 0), (0, 1)]

theorem stretches_thereAndBack : stretches thereAndBack = [(1, 0), (-1, 0), (0, 1)] := by
  have hsegments : segments thereAndBack = [(1, 0), (0, 0), (-1, 0), (0, 1)] := by
    show [((1 : ℝ) - 0, (0 : ℝ) - 0), (1 - 1, 0 - 0), (0 - 1, 0 - 0), (0 - 0, 1 - 0)] = _
    norm_num
  have hreach (x y : ℝ) : reach (x, y) = √(x ^ 2 + y ^ 2) := rfl
  rw [stretches, hsegments]
  norm_num [List.filter_cons, hreach]

theorem headings_thereAndBack : (headings thereAndBack).length = 3 ∧
    (headings thereAndBack).head? = some 0 ∧
    (headings thereAndBack).IsChain fun before after => |after - before| ≤ Real.pi := by
  obtain ⟨hall, hhead, hchain⟩ := headings_follow_moves thereAndBack
  rw [stretches_thereAndBack] at hall hhead
  exact ⟨hall.length_eq.symm, hhead.trans (congrArg some Complex.arg_one), hchain⟩

end StrayTouch.Path
