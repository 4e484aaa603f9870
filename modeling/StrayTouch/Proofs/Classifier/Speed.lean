import StrayTouch.Proofs.Classifier.Variant
import StrayTouch.Proofs.Number.Quotient

/-!
When the speed of a stroke is read. It is left out where no time has passed, which is asked of the
nanoseconds; the seconds are asked once more before the way is divided by them. Both questions have
the same answer, since seconds that are rounded from some nanoseconds are never zero.
-/
namespace StrayTouch

section Scalar

variable {α : Type} [Scalar α]

/-- Over zero, no velocity is made up. -/
theorem velocity_of_pos [Scalar.Monotone α] [Scalar.Still α] (distance : α) {seconds : α}
    (h : Scalar.lt Scalar.zero seconds = true) :
    Scalar.le seconds Scalar.zero = false ∧ velocity distance seconds = distance / seconds := by
  have hguard : Scalar.le seconds Scalar.zero = false := by
    rw [Bool.eq_false_iff]
    intro hle
    have hzero := Scalar.Monotone.lt_of_lt_of_le h hle
    rw [Scalar.Still.not_lt_zero] at hzero
    cases hzero
  exact ⟨hguard, by rw [velocity, hguard]; rfl⟩

namespace Stroke

variable {s : Stroke α}

theorem durationSeconds_eq_ok_iff {x : α} : s.durationSeconds = .ok x ↔
    Scalar.ratio? s.durationNanos nanosPerSecond = some x := by
  unfold durationSeconds
  cases (Scalar.ratio? s.durationNanos nanosPerSecond : Option α) <;> simp

theorem Sound.exists_ends (h : s.Sound) : ∃ first last, s.points.head? = some first ∧
    s.points.getLast? = some last ∧ s.durationNanos = last.time - first.time := by
  have hhead := List.head?_eq_some_head h.points_ne_nil
  have hlast := List.getLast?_eq_some_getLast h.points_ne_nil
  exact ⟨_, _, hhead, hlast, by rw [durationNanos, hhead, hlast]⟩

end Stroke

namespace Variant

variable {x : Seen α}

theorem read_speed_eq_none_iff : speed.read x = .ok none ↔ x.stroke.durationNanos ≤ 0 := by
  by_cases h : x.stroke.durationNanos ≤ 0
  · simp [read, h]
  · cases hs : x.stroke.averageSpeed <;> simp [read, h, hs]

theorem read_speed_of_pos (h : 0 < x.stroke.durationNanos) :
    speed.read x = x.stroke.durationSeconds.map fun seconds =>
      some (velocity x.stroke.totalLength seconds) := by
  rw [read, if_neg (Int.not_le.mpr h), Stroke.averageSpeed]
  cases x.stroke.durationSeconds <;> rfl

end Variant

end Scalar

/-- A nanosecond is more than the least normal double of seconds, so none of them is lost. -/
theorem Stroke.zero_lt_seconds {s : Stroke Float} {seconds : Float} (h : 0 < s.durationNanos)
    (hs : s.durationSeconds = .ok seconds) : Scalar.lt Scalar.zero seconds = true := by
  have hratio : Binary64.nearest? s.durationNanos nanosPerSecond = some seconds :=
    durationSeconds_eq_ok_iff.mp hs
  have hsmall : nanosPerSecond ≤ twoTo 30 := by decide
  have hone : nanosPerSecond ≤ twoTo 1022 := hsmall.trans (twoTo_le_twoTo (by decide))
  have hnormal : nanosPerSecond ≤ s.durationNanos.natAbs * twoTo 1022 :=
    hone.trans (Nat.le_mul_of_pos_left _ (Int.natAbs_pos.mpr h.ne'))
  exact Binary64.zero_lt_of_nearest? hratio h (by decide) hnormal

theorem Stroke.exists_seconds_iff {s : Stroke Float} (h : 0 ≤ s.durationNanos) :
    (∃ seconds, s.durationSeconds = .ok seconds) ↔ s.durationNanos < durationBound := by
  simp only [durationSeconds_eq_ok_iff]
  rw [← Option.ne_none_iff_exists', ne_eq, ratio?_eq_none_iff h, not_le]

/-- The two questions about the time agree. However a gesture is touched, the speed of each of its
strokes, lifted or not, is left out exactly where the last point is as old as the first. As soon as
they differ, be it by one nanosecond, the seconds are over zero and the speed is the whole way over
them, with no way around the division; only where they are too large for a double, it fails. -/
theorem Gesture.speed_read_once_time_passes (dpi : Float) (ts : List Touch) {s : Stroke Float}
    (hs : s ∈ ((empty dpi).follow ts).2.strokes) :
    ∃ first last, s.points.head? = some first ∧ s.points.getLast? = some last ∧
      ∀ seen : Seen Float, seen.stroke = s ∨ seen.stroke = s.freeze →
        (Variant.speed.read seen = .ok none ↔ first.time = last.time) ∧
        (first.time ≠ last.time →
          ((∃ seconds, s.durationSeconds = .ok seconds) ↔
            last.time - first.time < durationBound) ∧
          ∀ seconds, s.durationSeconds = .ok seconds →
            Scalar.lt Scalar.zero seconds = true ∧ Scalar.le seconds Scalar.zero = false ∧
            Variant.speed.read seen = .ok (some (s.totalLength / seconds))) := by
  obtain ⟨_, _, hr⟩ := (represents_empty dpi).follow ts
  have hsound := hr.sound s hs
  obtain ⟨first, last, hfirst, hlast, hduration⟩ := hsound.exists_ends
  have hnonneg := hsound.durationNanos_nonneg
  refine ⟨first, last, hfirst, hlast, fun seen hseen => ?_⟩
  -- Whether it is lifted plays no part in what a stroke reports.
  have hsame : seen.stroke.durationNanos = s.durationNanos ∧
      seen.stroke.durationSeconds = s.durationSeconds ∧
      seen.stroke.totalLength = s.totalLength := by
    rcases hseen with h | h
    · rw [h]
      exact ⟨rfl, rfl, rfl⟩
    · rw [h]
      exact ⟨rfl, rfl, rfl⟩
  obtain ⟨hnanos, hseconds, htotal⟩ := hsame
  constructor
  · rw [Variant.read_speed_eq_none_iff, hnanos]
    omega
  · intro hne
    have hpos : 0 < s.durationNanos := by omega
    refine ⟨hduration ▸ Stroke.exists_seconds_iff hnonneg, fun seconds hs => ?_⟩
    have hzero := Stroke.zero_lt_seconds hpos hs
    obtain ⟨hguard, hvelocity⟩ := velocity_of_pos s.totalLength hzero
    refine ⟨hzero, hguard, ?_⟩
    rw [Variant.read_speed_of_pos (hnanos ▸ hpos), hseconds, hs, htotal, ← hvelocity]
    rfl

private def contactAt (id time : Int) (x : Float) : Touch :=
  .point (.int id) ⟨.atom (.float x), .atom (.float 0.5), .int time, .null⟩

/-- Two contacts in turns. The first one moves within a nanosecond, the second one within none. -/
def suddenMoves : List Touch :=
  [contactAt 1 5 1.5, contactAt 2 5 2.5, contactAt 1 6 81.5, contactAt 2 5 3.5, .up (.int 1)]

theorem exists_suddenMoves (time : Int) (h : time = 5 ∨ time = 6) :
    ∃ s ∈ ((Gesture.empty (160.0 : Float)).follow suddenMoves).2.strokes,
      s.points.head?.map Point.time = some 5 ∧ s.points.getLast?.map Point.time = some time := by
  have hany : (((Gesture.empty (160.0 : Float)).follow suddenMoves).2.strokes.any fun s =>
      decide (s.points.head?.map Point.time = some 5 ∧
        s.points.getLast?.map Point.time = some time)) = true := by
    rcases h with rfl | rfl
    · decide +kernel
    · decide +kernel
  obtain ⟨s, hs, htimes⟩ := List.any_eq_true.mp hany
  exact ⟨s, hs, of_decide_eq_true htimes⟩

theorem speed_suddenMoves :
    let g := ((Gesture.empty (160.0 : Float)).follow suddenMoves).2
    (∃ s ∈ g.strokes, Variant.speed.read ⟨s.freeze, 1, g.freezeAll.strokes⟩ = .ok none) ∧
    ∃ s ∈ g.strokes, ∃ seconds, s.durationSeconds = .ok seconds ∧
      Scalar.lt Scalar.zero seconds = true ∧
      Variant.speed.read ⟨s.freeze, 0, g.freezeAll.strokes⟩ =
        .ok (some (s.totalLength / seconds)) := by
  intro g
  constructor
  · obtain ⟨s, hs, hhead, hend⟩ := exists_suddenMoves 5 (.inl rfl)
    obtain ⟨first, last, hfirst, hlast, hspeed⟩ :=
      Gesture.speed_read_once_time_passes 160.0 suddenMoves hs
    rw [hfirst] at hhead
    rw [hlast] at hend
    have hsame : first.time = last.time :=
      (Option.some.inj hhead).trans (Option.some.inj hend).symm
    exact ⟨s, hs, (hspeed _ (.inr rfl)).1.mpr hsame⟩
  · obtain ⟨s, hs, hhead, hend⟩ := exists_suddenMoves 6 (.inr rfl)
    obtain ⟨first, last, hfirst, hlast, hspeed⟩ :=
      Gesture.speed_read_once_time_passes 160.0 suddenMoves hs
    rw [hfirst] at hhead
    rw [hlast] at hend
    have hstart : first.time = 5 := Option.some.inj hhead
    have hstop : last.time = 6 := Option.some.inj hend
    obtain ⟨hdouble, hread⟩ := (hspeed ⟨s.freeze, 0, g.freezeAll.strokes⟩ (.inr rfl)).2 (by omega)
    have hshort : last.time - first.time < durationBound := by
      rw [hstart, hstop]
      decide +kernel
    obtain ⟨seconds, hseconds⟩ := hdouble.mpr hshort
    obtain ⟨hzero, _, hvalue⟩ := hread seconds hseconds
    exact ⟨s, hs, seconds, hseconds, hzero, hvalue⟩

end StrayTouch
