import StrayTouch.Classifier.Variant
import StrayTouch.Proofs.Engine.Panel
import StrayTouch.Proofs.Config
import StrayTouch.Proofs.Gesture.Store
import StrayTouch.Proofs.Number.Nearest
import StrayTouch.Proofs.Path

/-!
When the classifiers of the library fail. They do so only where a number leaves the range of the
doubles: the seconds of a stroke that lasts too long, and the sum of its sizes.
-/
namespace StrayTouch

/-- A stroke that lasts so many nanoseconds lasts too long for its seconds to be a double. -/
def durationBound : Nat := Binary64.overflowBound * nanosPerSecond

/-- The feature of a variant cannot be read off a stroke, because a number on the way to it is
beyond the range of the doubles. -/
def Variant.OutOfRange (v : Variant) (s : Stroke Float) : Prop :=
  match v with
  | durationCount | speed => (durationBound : Int) ≤ s.durationNanos
  | touchSize => Binary64.total? (s.points.filterMap Point.size) = none
  | _ => False

theorem Variant.outOfRange_freeze (v : Variant) (s : Stroke Float) :
    v.OutOfRange s.freeze ↔ v.OutOfRange s := by
  cases v <;> rfl

theorem Stroke.ratio?_eq_none_iff {s : Stroke Float} (h : 0 ≤ s.durationNanos) :
    (Scalar.ratio? s.durationNanos nanosPerSecond : Option Float) = none ↔
      (durationBound : Int) ≤ s.durationNanos := by
  have hr : (Scalar.ratio? s.durationNanos nanosPerSecond : Option Float) =
      Binary64.nearest? s.durationNanos nanosPerSecond := rfl
  rw [hr, Binary64.nearest?_eq_none_iff (by decide), durationBound, ← Int.ofNat_le,
    Int.natAbs_of_nonneg h]

theorem durationBound_pos : 0 < durationBound :=
  Nat.mul_pos Binary64.overflowBound_pos (by decide)

variable {α : Type} [Scalar α]

omit [Scalar α] in
theorem Stroke.durationNanos_of_count_lt {s : Stroke α} (h : s.count < 2) :
    s.durationNanos = 0 := by
  obtain ⟨dpi, points, frozen⟩ := s
  match points, h with
  | [], _ => rfl
  | [p], _ => exact Int.sub_self p.time

theorem Stroke.durationSeconds_eq_error_iff {s : Stroke α} :
    (∃ f, s.durationSeconds = .error f) ↔
      (Scalar.ratio? s.durationNanos nanosPerSecond : Option α) = none := by
  unfold durationSeconds
  cases (Scalar.ratio? s.durationNanos nanosPerSecond : Option α) <;> simp

theorem Stroke.meanSize_eq_error_iff {s : Stroke α} :
    (∃ f, s.meanSize = .error f) ↔ s.points.filterMap Point.size ≠ [] ∧
      Scalar.total? (s.points.filterMap Point.size) = none := by
  unfold meanSize
  dsimp only
  rw [← List.isEmpty_eq_false_iff]
  cases (s.points.filterMap Point.size).isEmpty <;>
    cases Scalar.total? (s.points.filterMap Point.size) <;> simp

namespace Variant

variable {v : Variant}

/-- A variant answers with a number, unless its feature cannot be read. -/
theorem answer_eq (v : Variant) (ev : Evaluator α) (seen : Seen α) :
    v.classifier.answer ev seen =
      if seen.stroke.count < v.minPoints then .ok (.number ev.floor)
      else (v.read seen).map fun x? =>
        .number (x?.elim ev.floor fun x => ev.scoreOf (.number x)) := by
  rw [classifier]
  unfold scoreFeature
  by_cases hshort : seen.stroke.count < v.minPoints
  · simp [hshort]
  · simp only [hshort, decide_false, Bool.false_eq_true, ↓reduceIte]
    cases v.read seen with
    | error f => rfl
    | ok x? => cases x? <;> rfl

/-- A stroke too short for a variance of its direction has too few directions for it anyway. -/
theorem answer_anglesVariance (ev : Evaluator α) (seen : Seen α) :
    anglesVariance.classifier.answer ev seen = .ok (.number
      (if seen.stroke.headings.length < 2 then ev.floor
        else ev.scoreOf (.number seen.stroke.headingVariance))) := by
  rw [answer_eq, read]
  by_cases hshort : seen.stroke.count < anglesVariance.minPoints
  · have hcount : seen.stroke.count < 3 := hshort
    have hfew : seen.stroke.headings.length < 2 := by
      have hle := Path.length_headings_le seen.stroke.positions
      rw [Stroke.positions, List.length_map] at hle
      exact hle.trans_lt (show seen.stroke.count - 1 < 2 by omega)
    rw [if_pos hshort, if_pos hfew]
  · rw [if_neg hshort]
    split_ifs
    · rfl
    · rfl

theorem answer_eq_error_iff_read {ev : Evaluator α} {seen : Seen α} :
    (∃ f, v.classifier.answer ev seen = .error f) ↔
      v.minPoints ≤ seen.stroke.count ∧ ∃ f, v.read seen = .error f := by
  rw [answer_eq, ← Nat.not_lt]
  by_cases hshort : seen.stroke.count < v.minPoints
  · simp [hshort]
  · cases v.read seen <;> simp [hshort, Except.map]

theorem read_eq_error_iff {seen : Seen α} :
    (∃ f, v.read seen = .error f) ↔
      match v with
      | durationCount => ∃ f, seen.stroke.durationSeconds = .error f
      | speed => 0 < seen.stroke.durationNanos ∧ ∃ f, seen.stroke.durationSeconds = .error f
      | touchSize => ∃ f, seen.stroke.meanSize = .error f
      | _ => False := by
  cases v with
  | durationCount =>
    cases hs : seen.stroke.durationSeconds <;> simp [read, hs]
  | speed =>
    by_cases hd : seen.stroke.durationNanos ≤ 0
    · simp [read, hd]
    · cases hs : seen.stroke.durationSeconds <;>
        simp [read, Stroke.averageSpeed, hs, hd, Int.not_le.mp hd]
  | touchSize => rfl
  | anglesVariance => simp [read]
  | endPointLength => simp [read]
  | endPointRatio => simp [read]
  | pointerCount => simp [read]

/-- A variant fails on a stroke exactly where its feature is out of range. -/
theorem answer_eq_error_iff {ev : Evaluator Float} {seen : Seen Float} (h : seen.stroke.Sound) :
    (∃ f, v.classifier.answer ev seen = .error f) ↔ v.OutOfRange seen.stroke := by
  have hpos : 1 ≤ seen.stroke.count := List.length_pos_of_ne_nil h.points_ne_nil
  have hlong : (durationBound : Int) ≤ seen.stroke.durationNanos →
      2 ≤ seen.stroke.count ∧ 0 < seen.stroke.durationNanos := by
    intro hb
    have := durationBound_pos
    refine ⟨?_, by omega⟩
    by_contra hc
    have := Stroke.durationNanos_of_count_lt (Nat.not_le.mp hc)
    omega
  rw [answer_eq_error_iff_read, read_eq_error_iff]
  simp only [Stroke.durationSeconds_eq_error_iff, Stroke.meanSize_eq_error_iff,
    Stroke.ratio?_eq_none_iff h.durationNanos_nonneg]
  cases v with
  | durationCount => exact ⟨fun hr => hr.2, fun hb => ⟨(hlong hb).1, hb⟩⟩
  | speed => exact ⟨fun hr => hr.2.2, fun hb => ⟨(hlong hb).1, (hlong hb).2, hb⟩⟩
  | touchSize =>
    refine ⟨fun hr => hr.2.2, fun hb => ⟨hpos, fun hn => ?_, hb⟩⟩
    rw [OutOfRange, hn] at hb
    cases hb
  | anglesVariance => exact iff_of_false (fun hr => hr.2) id
  | endPointLength => exact iff_of_false (fun hr => hr.2) id
  | endPointRatio => exact iff_of_false (fun hr => hr.2) id
  | pointerCount => exact iff_of_false (fun hr => hr.2) id

end Variant

end StrayTouch
