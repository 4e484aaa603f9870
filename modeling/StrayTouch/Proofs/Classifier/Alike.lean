import StrayTouch.Proofs.Classifier.Variant
import StrayTouch.Proofs.Engine.Breakdown

/-!
What the classifiers of the library look at. None of them tells two strokes apart that have as many
points, last as long, and have the same lengths, directions and mean size; only the count of
contacts looks beyond the stroke, at its place and at how many there are.
-/
namespace StrayTouch

variable {α : Type} [Scalar α]

/-- Strokes that no classifier of the library tells apart. -/
structure Stroke.Alike (s t : Stroke α) : Prop where
  count : s.count = t.count
  durationNanos : s.durationNanos = t.durationNanos
  totalLength : s.totalLength = t.totalLength
  endPointLength : s.endPointLength = t.endPointLength
  headings : s.headings = t.headings
  meanSize : s.meanSize = t.meanSize

theorem Stroke.Alike.of_eq {s t : Stroke α} (h : s = t) : s.Alike t := by
  subst h
  exact ⟨rfl, rfl, rfl, rfl, rfl, rfl⟩

/-- Two strokes have the same place among as many. -/
def Seen.SamePlace {α : Type} (x y : Seen α) : Prop :=
  x.place = y.place ∧ x.strokes.length = y.strokes.length

namespace Variant

variable {v : Variant} {x y : Seen α}

theorem read_pointerCount_congr (h : x.SamePlace y) :
    pointerCount.read x = pointerCount.read y := by
  have hfirst : x.isFirst = y.isFirst := congrArg (· == 0) h.1
  simp only [read]
  rw [hfirst, h.2]

theorem read_congr (h : x.stroke.Alike y.stroke) (hp : v = pointerCount → x.SamePlace y) :
    v.read x = v.read y := by
  cases v with
  | durationCount => simp only [read, Stroke.durationSeconds, h.durationNanos, h.count]
  | anglesVariance => simp only [read, Stroke.headingVariance, h.headings]
  | speed =>
    simp only [read, Stroke.averageSpeed, Stroke.durationSeconds, h.durationNanos, h.totalLength]
  | endPointLength => simp only [read, h.endPointLength]
  | endPointRatio => simp only [read, h.totalLength, h.endPointLength]
  | touchSize => exact h.meanSize
  | pointerCount => exact read_pointerCount_congr (hp rfl)

theorem answer_congr (hc : x.stroke.count = y.stroke.count) (hr : v.read x = v.read y)
    (ev : Evaluator α) : v.classifier.answer ev x = v.classifier.answer ev y := by
  rw [answer_eq, answer_eq, hc, hr]

end Variant

namespace Member

variable {m : Member α} {v : Variant} {x y : Seen α}

theorem outcome_congr (hm : m.classifier = v.classifier) (hc : x.stroke.count = y.stroke.count)
    (hr : v.read x = v.read y) : m.outcome x = m.outcome y := by
  rw [outcome, outcome, hm, Variant.answer_congr hc hr]

theorem counted_of_outcome (policy : FailurePolicy) (h : m.outcome x = m.outcome y) :
    m.counted policy x = m.counted policy y := by
  unfold counted
  rw [h]

theorem fails_of_outcome (h : m.outcome x = m.outcome y) : m.fails x = m.fails y := by
  unfold fails
  rw [h]

end Member

end StrayTouch
