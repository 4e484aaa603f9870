import StrayTouch.Proofs.Classifier.Alike
import StrayTouch.Proofs.Path.Length
import Mathlib.Algebra.BigOperators.Ring.List

/-!
Strokes on displays of different densities, in exact arithmetic. Where positions and sizes grow by
the same factor as the density, a stroke stays as it is in inches; where the pixels stay the same,
it gets shorter, and all of it in proportion.
-/
namespace StrayTouch

-- Sums and products in a field are those of the field.
attribute [-instance] Scalar.toAdd Scalar.toSub Scalar.toMul Scalar.toDiv

variable {K : Type} [Field K] [LinearOrder K] [FloorRing K] [Plane K]

omit [LinearOrder K] [FloorRing K] [Plane K] in
/-- A point on a display that is denser by a factor. -/
def Point.scaled (k : K) (p : Point K) : Point K :=
  ⟨k * p.x, k * p.y, p.time, p.size.map (k * ·)⟩

namespace Path

def scale (k : K) (m : K × K) : K × K :=
  (k * m.1, k * m.2)

variable [Plane.Lawful K] {k : K}

theorem reach_nonneg (m : K × K) : 0 ≤ reach m :=
  Plane.Lawful.hypot_nonneg m.1 m.2

theorem length_nonneg [IsStrictOrderedRing K] (ps : List (K × K)) : 0 ≤ length ps :=
  length_nonneg_of reach_nonneg ps

theorem reach_scale (hk : 0 < k) (m : K × K) : reach (scale k m) = k * reach m :=
  Plane.Lawful.hypot_mul hk m.1 m.2

variable {ps qs : List (K × K)}

theorem length_of_moved (hk : 0 < k) (h : Moved (scale k) ps qs) :
    length qs = k * length ps := by
  rw [length_eq_sum, length_eq_sum, h.segments, List.map_map, ← List.sum_map_mul_left]
  exact congrArg List.sum (List.map_congr_left fun m _ => reach_scale hk m)

theorem headings_of_moved [IsStrictOrderedRing K] (hk : 0 < k) (h : Moved (scale k) ps qs) :
    headings qs = headings ps := by
  have hmoves : moves qs = (moves ps).map (scale k) := by
    rw [moves, h.segments, List.filter_map]
    refine congrArg _ (List.filter_congr fun m _ => ?_)
    have hiff : 0 < k * reach m ↔ 0 < reach m := mul_pos_iff_of_pos_left hk
    rw [Function.comp_apply, reach_scale hk]
    exact decide_eq_decide.mpr hiff
  rw [headings, headings, rawHeadings, rawHeadings, hmoves, List.map_map]
  refine congrArg unwrap (List.map_congr_left fun m _ => ?_)
  exact Plane.Lawful.atan2_mul hk m.2 m.1

end Path

namespace Stroke

/-- From end to end in pixels. -/
def endPointReach (s : Stroke K) : K :=
  (Path.span? s.positions).elim 0 Path.reach

theorem endPointLength_eq_div (s : Stroke K) : s.endPointLength = s.endPointReach / s.dpi := by
  rw [endPointLength_eq_span, endPointReach]
  cases Path.span? s.positions with
  | none => exact (zero_div s.dpi).symm
  | some m => rfl

theorem endPointReach_nonneg (h : ∀ m : K × K, 0 ≤ Path.reach m) (s : Stroke K) :
    0 ≤ s.endPointReach := by
  rw [endPointReach]
  cases Path.span? s.positions with
  | none => exact le_rfl
  | some m => exact h m

theorem meanSize_scaled {k : K} (hk : k ≠ 0) (dpi : K) (ps : List (Point K)) (frozen : Bool) :
    (⟨k * dpi, ps.map (Point.scaled k), frozen⟩ : Stroke K).meanSize =
      (⟨dpi, ps, frozen⟩ : Stroke K).meanSize := by
  have hsizes : (ps.map (Point.scaled k)).filterMap Point.size =
      (ps.filterMap Point.size).map (k * ·) := by
    rw [List.filterMap_map, List.map_filterMap]
    rfl
  have htotal (xs : List K) : (Scalar.total? xs : Option K) = some xs.sum := rfl
  have hsum (xs : List K) : (xs.map (k * ·)).sum = k * xs.sum := by
    rw [List.sum_map_mul_left, List.map_id']
  have hmean (x y : K) : k * x / y / (k * dpi) = x / y / dpi := by
    rw [mul_div_assoc, mul_div_mul_left _ dpi hk]
  simp only [meanSize, hsizes, htotal, List.isEmpty_map, List.length_map, hsum]
  split
  next => rfl
  next => exact congrArg (fun x => Except.ok (some x)) (hmean _ _)

variable [Plane.Lawful K] [IsStrictOrderedRing K]

/-- A stroke is the same in inches on a display that is denser by a factor. -/
theorem alike_scaled {k : K} (hk : 0 < k) (dpi : K) (ps : List (Point K)) :
    (⟨dpi, ps, true⟩ : Stroke K).Alike ⟨k * dpi, ps.map (Point.scaled k), true⟩ := by
  have hmoved : Path.Moved (Path.scale k) (ps.map Point.position)
      ((ps.map (Point.scaled k)).map Point.position) := by
    rw [List.map_map]
    exact Path.moved_map fun p _ q _ => Prod.ext (mul_sub k q.x p.x).symm (mul_sub k q.y p.y).symm
  have hduration : (⟨k * dpi, ps.map (Point.scaled k), true⟩ : Stroke K).durationNanos =
      (⟨dpi, ps, true⟩ : Stroke K).durationNanos := durationNanos_map fun _ _ _ _ => rfl
  refine ⟨(List.length_map _).symm, hduration.symm, ?_, ?_, ?_,
    (meanSize_scaled hk.ne' dpi ps true).symm⟩
  · have hlength := Path.length_of_moved hk hmoved
    simp only [totalLength, positions, hlength]
    exact (mul_div_mul_left _ dpi hk.ne').symm
  · have hreach : (⟨k * dpi, ps.map (Point.scaled k), true⟩ : Stroke K).endPointReach =
        k * (⟨dpi, ps, true⟩ : Stroke K).endPointReach := by
      simp only [endPointReach, positions, hmoved.span]
      cases Path.span? (ps.map Point.position) with
      | none => exact (mul_zero k).symm
      | some m => exact Path.reach_scale hk m
    rw [endPointLength_eq_div, endPointLength_eq_div, hreach]
    exact (mul_div_mul_left _ dpi hk.ne').symm
  · exact (Path.headings_of_moved hk hmoved).symm

end Stroke

/-- A greater distance in the same time is a greater velocity. -/
theorem velocity_le [IsStrictOrderedRing K] {x y : K} (h : x ≤ y) (seconds : K) :
    velocity x seconds ≤ velocity y seconds := by
  unfold velocity
  split
  next => exact le_rfl
  next hstill =>
    have hpos : 0 < seconds := not_le.mp fun hle => hstill (decide_eq_true hle)
    exact div_le_div_of_nonneg_right h hpos.le

namespace Stroke

/-- The same pixels on a display that is no less dense. -/
structure Denser (s t : Stroke K) : Prop where
  points : s.points = t.points
  dpi_pos : 0 < s.dpi
  dpi_le : s.dpi ≤ t.dpi

namespace Denser

variable {s t : Stroke K}

omit [FloorRing K] [Plane K] in
theorem positions_eq (h : s.Denser t) : s.positions = t.positions :=
  congrArg (List.map Point.position) h.points

theorem endPointReach_eq (h : s.Denser t) : s.endPointReach = t.endPointReach := by
  rw [endPointReach, endPointReach, h.positions_eq]

omit [FloorRing K] [Plane K] in
theorem other_pos (h : s.Denser t) : 0 < t.dpi :=
  h.dpi_pos.trans_le h.dpi_le

theorem endPointRatio_eq (h : s.Denser t) :
    s.endPointLength / s.totalLength = t.endPointLength / t.totalLength := by
  rw [endPointLength_eq_div, endPointLength_eq_div, h.endPointReach_eq, totalLength, totalLength,
    div_div_div_cancel_right₀ h.dpi_pos.ne', div_div_div_cancel_right₀ h.other_pos.ne',
    h.positions_eq]

variable [IsStrictOrderedRing K]

theorem totalLength_nonpos_iff (h : s.Denser t) : s.totalLength ≤ 0 ↔ t.totalLength ≤ 0 := by
  rw [totalLength, totalLength, div_le_iff₀ h.dpi_pos, div_le_iff₀ h.other_pos, zero_mul, zero_mul,
    h.positions_eq]

variable [Plane.Lawful K]

theorem totalLength_le (h : s.Denser t) : t.totalLength ≤ s.totalLength := by
  rw [totalLength, totalLength, h.positions_eq]
  exact div_le_div_of_nonneg_left (Path.length_nonneg t.positions) h.dpi_pos h.dpi_le

theorem endPointLength_le (h : s.Denser t) : t.endPointLength ≤ s.endPointLength := by
  have hnonneg := endPointReach_nonneg Path.reach_nonneg t
  rw [endPointLength_eq_div, endPointLength_eq_div, h.endPointReach_eq]
  exact div_le_div_of_nonneg_left hnonneg h.dpi_pos h.dpi_le

end Denser

end Stroke

end StrayTouch
