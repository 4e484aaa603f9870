import StrayTouch.Proofs.Classifier.Variant
import StrayTouch.Proofs.Gesture.Scale
import StrayTouch.Proofs.Scalar.Real

/-!
The way from end to end and the whole way of a stroke, in exact arithmetic: the first is no longer
than the second, so that their ratio is a number from zero to one wherever there is a way at all.
-/
namespace StrayTouch

-- Sums and products in a field are those of the field.
attribute [-instance] Scalar.toAdd Scalar.toSub Scalar.toMul Scalar.toDiv

variable {K : Type} [Field K] [LinearOrder K] [IsStrictOrderedRing K] [FloorRing K] [Plane K]
  [Plane.Metric K]

namespace Stroke

variable {s after : Stroke K} {p : Point K}

theorem endPointLength_nonneg (hdpi : 0 < s.dpi) : 0 ≤ s.endPointLength := by
  rw [endPointLength_eq_div]
  exact div_nonneg (endPointReach_nonneg Path.metric_reach_nonneg s) hdpi.le

theorem endPointLength_le_totalLength (hdpi : 0 < s.dpi) : s.endPointLength ≤ s.totalLength := by
  rw [endPointLength_eq_div]
  exact div_le_div_of_nonneg_right (Path.span_le_length s.positions) hdpi.le

theorem totalLength_nonneg (hdpi : 0 < s.dpi) : 0 ≤ s.totalLength :=
  (endPointLength_nonneg hdpi).trans (endPointLength_le_totalLength hdpi)

theorem totalLength_eq_zero_iff (hdpi : 0 < s.dpi) :
    s.totalLength = 0 ↔ ∀ p ∈ s.points, ∀ q ∈ s.points, p.position = q.position := by
  have hpixels : s.totalLength = 0 ↔ Path.length s.positions = 0 := by
    rw [totalLength, div_eq_zero_iff, or_iff_left hdpi.ne']
  rw [hpixels, Path.length_eq_zero_iff, positions, List.forall_mem_map]
  simp only [List.forall_mem_map]

theorem totalLength_le_of_append (hdpi : 0 < s.dpi) (h : s.append p = .ok after) :
    s.totalLength ≤ after.totalLength := by
  obtain ⟨_, _, _, rfl⟩ := append_eq_ok_iff.mp h
  have hpositions : (⟨s.dpi, s.points ++ [p], s.frozen⟩ : Stroke K).positions =
      s.positions ++ [p.position] := List.map_append
  rw [totalLength, totalLength, hpositions]
  exact div_le_div_of_nonneg_right (Path.length_le_append Path.metric_reach_nonneg _ _) hdpi.le

end Stroke

omit [IsStrictOrderedRing K] [Plane.Metric K] in
/-- The ratio is asked for unless there is no way to divide by. -/
theorem Variant.read_endPointRatio (x : Seen K) : endPointRatio.read x =
    .ok (if x.stroke.totalLength ≤ 0 then none
      else some (x.stroke.endPointLength / x.stroke.totalLength)) :=
  congrArg Except.ok (if_congr Plane.scalar_le_iff rfl rfl)

/-- The way from end to end is a part of the whole way, which is nothing exactly where all points
are in one place, and which no point that is added makes shorter. Their ratio is left out exactly
where there is no way, and is a number from zero to one everywhere else. -/
theorem Stroke.endPointRatio_is_proportion (s : Stroke K) (hdpi : 0 < s.dpi) :
    (0 ≤ s.endPointLength ∧ s.endPointLength ≤ s.totalLength) ∧
    (s.totalLength = 0 ↔ ∀ p ∈ s.points, ∀ q ∈ s.points, p.position = q.position) ∧
    (∀ p after, s.append p = .ok after → s.totalLength ≤ after.totalLength) ∧
    ∀ seen : Seen K, seen.stroke = s →
      (Variant.endPointRatio.read seen = .ok none ↔ s.totalLength = 0) ∧
      (s.totalLength ≠ 0 → ∃ ratio, Variant.endPointRatio.read seen = .ok (some ratio) ∧
        ratio = s.endPointLength / s.totalLength ∧ 0 ≤ ratio ∧ ratio ≤ 1) := by
  have hends := endPointLength_nonneg hdpi
  have hle := endPointLength_le_totalLength hdpi
  have htotal := totalLength_nonneg hdpi
  refine ⟨⟨hends, hle⟩, totalLength_eq_zero_iff hdpi,
    fun p after => totalLength_le_of_append hdpi, ?_⟩
  rintro seen rfl
  rw [Variant.read_endPointRatio]
  constructor
  · rw [← htotal.ge_iff_eq']
    split_ifs with hnone
    · exact iff_of_true rfl hnone
    · exact iff_of_false (by simp) hnone
  · intro hway
    have hpos := lt_of_le_of_ne htotal hway.symm
    rw [if_neg hpos.not_ge]
    exact ⟨_, rfl, rfl, div_nonneg hends htotal, div_le_one_of_le₀ hle htotal⟩

/-- To the right, to rest, and up. -/
noncomputable def detour : Stroke ℝ :=
  ⟨1, [⟨0, 0, 0, none⟩, ⟨1, 0, 1, none⟩, ⟨1, 0, 2, none⟩, ⟨1, 1, 3, none⟩], true⟩

theorem endPointLength_detour : detour.endPointLength = √2 := by
  show √((0 - 1 : ℝ) ^ 2 + (0 - 1) ^ 2) / 1 = √2
  norm_num

theorem totalLength_detour : detour.totalLength = 2 := by
  show (0 + √((1 - 0 : ℝ) ^ 2 + (0 - 0) ^ 2) + √((1 - 1 : ℝ) ^ 2 + (0 - 0) ^ 2) +
    √((1 - 1 : ℝ) ^ 2 + (1 - 0) ^ 2)) / 1 = 2
  norm_num

theorem endPointRatio_detour : 0 < detour.dpi ∧ detour.endPointLength = √2 ∧
    detour.totalLength = 2 ∧
    ∃ ratio, Variant.endPointRatio.read ⟨detour, 0, [detour]⟩ = .ok (some ratio) ∧
      ratio = √2 / 2 ∧ 0 ≤ ratio ∧ ratio ≤ 1 := by
  have hdpi : 0 < detour.dpi := zero_lt_one
  have hway : detour.totalLength ≠ 0 := totalLength_detour ▸ two_ne_zero
  obtain ⟨_, _, _, hread⟩ := detour.endPointRatio_is_proportion hdpi
  obtain ⟨ratio, hratio, hvalue, hbounds⟩ := (hread ⟨detour, 0, [detour]⟩ rfl).2 hway
  rw [endPointLength_detour, totalLength_detour] at hvalue
  exact ⟨hdpi, endPointLength_detour, totalLength_detour, ratio, hratio, hvalue, hbounds⟩

end StrayTouch
