import StrayTouch.Proofs.Classifier.Variant
import StrayTouch.Proofs.Number.Length
import StrayTouch.Proofs.Path.Rest
import StrayTouch.Proofs.Scalar.Real

/-!
Strokes that rest. Samples at the place of the one before them change the count and the duration of
a stroke, but neither its directions nor its lengths; what is scored by these is scored alike, in
doubles to the last bit and in exact arithmetic.
-/
namespace StrayTouch

variable {α : Type} [Scalar α]

namespace Stroke

/-- The second stroke is the first one with rests: each of its points is followed by any number of
points at the same position. -/
def Rests (s t : Stroke α) : Prop :=
  t.dpi = s.dpi ∧ ∃ visits : List (Point α × List (Point α)),
    s.points = visits.map Prod.fst ∧ t.points = visits.flatMap (fun v => v.1 :: v.2) ∧
      ∀ v ∈ visits, ∀ p ∈ v.2, p.position = v.1.position

variable {s t : Stroke α}

omit [Scalar α] in
theorem Rests.positions (h : s.Rests t) : Path.Rests s.positions t.positions := by
  obtain ⟨_, visits, hs, ht, hplace⟩ := h
  rw [Stroke.positions, Stroke.positions, hs, ht]
  clear hs ht
  induction visits with
  | nil => exact .nil
  | cons v visits ih =>
    obtain ⟨hv, hvisits⟩ := List.forall_mem_cons.mp hplace
    have hstay : v.2.map Point.position = List.replicate v.2.length v.1.position :=
      List.eq_replicate_iff.mpr ⟨List.length_map _, List.forall_mem_map.mpr hv⟩
    rw [List.flatMap_cons, List.map_append, List.map_cons, List.map_cons, List.map_cons, hstay]
    exact (ih hvisits).replicate v.1.position v.2.length

omit [Scalar α] in
theorem Rests.count_le (h : s.Rests t) : s.count ≤ t.count := by
  have hlength := h.positions.length_le
  rwa [Stroke.positions, Stroke.positions, List.length_map, List.length_map] at hlength

theorem finite_positions (hs : ∀ p ∈ s.points, p.isFinite = true) :
    ∀ p ∈ s.positions, Scalar.isFinite p.1 = true ∧ Scalar.isFinite p.2 = true := by
  refine List.forall_mem_map.mpr fun p hp => ?_
  have hfinite := hs p hp
  rw [Point.isFinite, Bool.and_eq_true, Bool.and_eq_true] at hfinite
  exact hfinite.1

theorem Rests.endPointLength_eq (h : s.Rests t) (hlong : 2 ≤ s.count) :
    t.endPointLength = s.endPointLength := by
  have hpositions : 2 ≤ s.positions.length := by rwa [Stroke.positions, List.length_map]
  rw [endPointLength_eq_span, endPointLength_eq_span, h.positions.span?_eq hpositions, h.1]

variable [Scalar.Still α]

theorem Rests.headings_eq (h : s.Rests t) (hs : ∀ p ∈ s.points, p.isFinite = true) :
    t.headings = s.headings := by
  have hmoves := h.positions.moves_eq (finite_positions hs)
  have hraw : Path.rawHeadings t.positions = Path.rawHeadings s.positions :=
    congrArg (List.map _) hmoves
  exact congrArg Path.unwrap hraw

theorem Rests.totalLength_eq (h : s.Rests t) (hs : ∀ p ∈ s.points, p.isFinite = true) :
    t.totalLength = s.totalLength := by
  rw [totalLength, totalLength, h.positions.length_eq (finite_positions hs), h.1]

end Stroke

namespace Variant

variable {v : Variant} {x y : Seen α} {ev : Evaluator α}

theorem answer_of_long (hx : v.minPoints ≤ x.stroke.count) (hy : v.minPoints ≤ y.stroke.count)
    (h : v.read y = v.read x) : v.classifier.answer ev y = v.classifier.answer ev x := by
  rw [answer_eq, answer_eq, if_neg (Nat.not_lt.mpr hx), if_neg (Nat.not_lt.mpr hy), h]

end Variant

/-- Samples at rest carry no evidence. A stroke of two points or more has the same directions and
the same lengths with any number of points more after each of its points, at the same position. The
variance of the direction, the way from end to end and its ratio are scored alike by every table,
also where the stroke was too short for the first of them without the rests. -/
theorem Stroke.rests_leave_no_evidence [Scalar.Still α] {s t : Stroke α} (h : s.Rests t)
    (hs : ∀ p ∈ s.points, p.isFinite = true) (hlong : 2 ≤ s.count) :
    t.headings = s.headings ∧ t.endPointLength = s.endPointLength ∧
      t.totalLength = s.totalLength ∧
      ∀ v ∈ [Variant.anglesVariance, .endPointLength, .endPointRatio], ∀ (ev : Evaluator α)
        (x y : Seen α), x.stroke = s → y.stroke = t →
          v.classifier.answer ev y = v.classifier.answer ev x := by
  have hheadings := h.headings_eq hs
  have hends := h.endPointLength_eq hlong
  have htotal := h.totalLength_eq hs
  refine ⟨hheadings, hends, htotal, ?_⟩
  rintro v hv ev x y rfl rfl
  rcases List.mem_cons.mp hv with rfl | hv
  · rw [Variant.answer_anglesVariance, Variant.answer_anglesVariance, Stroke.headingVariance,
      hheadings, Stroke.headingVariance]
  have hmin : v.minPoints = 2 := by
    rcases List.mem_cons.mp hv with rfl | hv
    · rfl
    · rw [List.mem_singleton.mp hv]
      rfl
  refine Variant.answer_of_long (hmin ▸ hlong) (hmin ▸ hlong.trans h.count_le) ?_
  rcases List.mem_cons.mp hv with rfl | hv
  · simp only [Variant.read, hends]
  · rw [List.mem_singleton.mp hv]
    simp only [Variant.read, hends, htotal]

/-- A stroke of one move. -/
def shortSwipe (α : Type) [Scalar α] : Stroke α :=
  ⟨Scalar.ofNat 160, [⟨Scalar.ofNat 10, Scalar.ofNat 20, 0, none⟩,
    ⟨Scalar.ofNat 90, Scalar.ofNat 20, 4, none⟩], true⟩

/-- It waits before it moves, and twice when it has arrived. -/
def waitingSwipe (α : Type) [Scalar α] : Stroke α :=
  ⟨Scalar.ofNat 160, [⟨Scalar.ofNat 10, Scalar.ofNat 20, 0, none⟩,
    ⟨Scalar.ofNat 10, Scalar.ofNat 20, 3, none⟩, ⟨Scalar.ofNat 90, Scalar.ofNat 20, 4, none⟩,
    ⟨Scalar.ofNat 90, Scalar.ofNat 20, 4, none⟩, ⟨Scalar.ofNat 90, Scalar.ofNat 20, 9, none⟩],
    true⟩

theorem rests_waitingSwipe (α : Type) [Scalar α] : (shortSwipe α).Rests (waitingSwipe α) := by
  let first (time : Int) : Point α := ⟨Scalar.ofNat 10, Scalar.ofNat 20, time, none⟩
  let last (time : Int) : Point α := ⟨Scalar.ofNat 90, Scalar.ofNat 20, time, none⟩
  refine ⟨rfl, [(first 0, [first 3]), (last 4, [last 4, last 9])], rfl, rfl, ?_⟩
  simp [first, last, Point.position]

theorem waitingSwipe_leaves_no_evidence :
    ((shortSwipe Float).count < 3 ∧ 3 ≤ (waitingSwipe Float).count ∧
      (waitingSwipe Float).headings = (shortSwipe Float).headings ∧
      (waitingSwipe Float).totalLength = (shortSwipe Float).totalLength) ∧
    (waitingSwipe ℝ).totalLength = (shortSwipe ℝ).totalLength := by
  have hfloat : ∀ p ∈ (shortSwipe Float).points, p.isFinite = true := by decide +kernel
  have hreal : ∀ p ∈ (shortSwipe ℝ).points, p.isFinite = true :=
    List.forall_mem_cons.mpr ⟨rfl, List.forall_mem_singleton.mpr rfl⟩
  obtain ⟨hheadings, _, htotal, _⟩ :=
    Stroke.rests_leave_no_evidence (rests_waitingSwipe Float) hfloat (by decide)
  obtain ⟨_, _, htotalReal, _⟩ :=
    Stroke.rests_leave_no_evidence (rests_waitingSwipe ℝ) hreal Nat.le.refl
  exact ⟨⟨by decide, by decide, hheadings, htotal⟩, htotalReal⟩

end StrayTouch
