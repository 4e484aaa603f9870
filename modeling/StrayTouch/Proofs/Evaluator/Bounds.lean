import StrayTouch.Proofs.Evaluator.Scan

/-!
How scores move with what is scored. In a table upwards a greater value scores no less, and in one
downwards no more; every score lies between the floor, where no row is crossed, and the ceiling,
where all are. The ceiling may be added up apart from any scan, beginning with the whole number zero.
-/
namespace StrayTouch

namespace Measure

variable {α : Type} [Scalar α]

def toReal : Measure α → Except Fault α
  | number x => .ok x
  | whole n =>
    match Scalar.ofInt? n with
    | some x => .ok x
    | none => .error .wholeTooLarge

/-- A number added to a measure. A whole one becomes a number of the arithmetic first. -/
def plus (m : Measure α) (x : α) : Except Fault (Measure α) := do
  let y ← m.toReal
  .ok (.number (y + x))

/-- Numbers added one by one to the whole number zero, which is left as it is where there are
none. -/
def sum (xs : List α) : Except Fault (Measure α) :=
  xs.foldlM plus (.whole 0)

theorem foldlM_plus (xs : List α) (x : α) :
    xs.foldlM plus (.number x) = .ok (.number (xs.foldl (· + ·) x)) := by
  induction xs generalizing x with
  | nil => rfl
  | cons y ys ih =>
    rw [List.foldlM_cons, List.foldl_cons]
    exact ih (x + y)

/-- A total that begins with the whole number zero is the same number as one that begins with the
zero of the arithmetic, where this is what the whole number becomes. -/
theorem sum_bind_toReal (h : Scalar.ofInt? 0 = some (Scalar.zero : α)) (xs : List α) :
    (sum xs >>= toReal) = .ok (Scalar.sum xs) := by
  have hzero : (whole 0 : Measure α).toReal = .ok Scalar.zero := by
    rw [toReal, h]
  cases xs with
  | nil => exact hzero
  | cons x xs =>
    have hfirst : (whole 0 : Measure α).plus x = .ok (.number (Scalar.zero + x)) := by
      rw [plus, hzero]
      rfl
    rw [sum, List.foldlM_cons, hfirst, ok_bind, foldlM_plus]
    rfl

/-- What a value crosses upwards a greater one crosses as well, and downwards a smaller one. -/
theorem crosses_of_le {m n : Measure Float} (h : m.exact.le n.exact = true) (t : Float) :
    (m.crosses .above t = true → n.crosses .above t = true) ∧
      (n.crosses .below t = true → m.crosses .below t = true) := by
  simp only [crosses_eq_passes]
  exact ⟨fun hm => Exact.lt_of_lt_of_le hm h, fun hn => Exact.lt_of_le_of_lt h hn⟩

end Measure

namespace Evaluator

variable {ev : Evaluator Float}

theorem Sound.scoreOf_mono (h : ev.Sound) {m n : Measure Float} (hle : m.exact.le n.exact = true) :
    match ev.direction with
    | .above => Scalar.le (ev.scoreOf m) (ev.scoreOf n) = true
    | .below => Scalar.le (ev.scoreOf n) (ev.scoreOf m) = true := by
  cases hd : ev.direction with
  | above =>
    refine scoreOf_le_of_crosses h fun row _ => ?_
    rw [hd]
    exact (Measure.crosses_of_le hle row.1).1
  | below =>
    refine scoreOf_le_of_crosses h fun row _ => ?_
    rw [hd]
    exact (Measure.crosses_of_le hle row.1).2

theorem score_of_measure? {r : Reading Float} {m : Measure Float} (h : r.measure? = some m) :
    ev.score r = .ok (ev.scoreOf m) := by
  rw [score, h]

theorem scoreOf_eq_ceiling {m : Measure Float}
    (h : ∀ row ∈ ev.rows, m.crosses ev.direction row.1 = true) : ev.scoreOf m = ev.ceiling := by
  have hall : ev.crossed m = ev.rows := List.takeWhile_eq_self_iff.mpr h
  rw [scoreOf, hall]
  rfl

/-- In a table that has been built, of two values in their order the greater one scores no less
upwards and no more downwards, be they doubles or whole numbers of any size. Every score lies
between the floor and the ceiling; a value scores the floor if it lies beyond no threshold and the
ceiling if it lies beyond all of them. The ceiling is that of the increments added to the whole
number zero, to the last bit. -/
theorem score_monotone_within_bounds {table direction : Value} {ev : Evaluator Float}
    (h : ofTable table direction = .ok ev) :
    (∀ {r s : Reading Float} {m n : Measure Float}, r.measure? = some m → s.measure? = some n →
      m.exact.le n.exact = true → ∃ x y, ev.score r = .ok x ∧ ev.score s = .ok y ∧
        match ev.direction with
        | .above => Scalar.le x y = true
        | .below => Scalar.le y x = true) ∧
    (∀ {r : Reading Float} {x : Float}, ev.score r = .ok x →
      Scalar.le ev.floor x = true ∧ Scalar.le x ev.ceiling = true) ∧
    (∀ {r : Reading Float} {m : Measure Float}, r.measure? = some m → ∃ x, ev.score r = .ok x ∧
      ((∀ row ∈ ev.rows, ev.direction.passes m.exact (Binary64.exact row.1) = false) →
        x = ev.floor) ∧
      ((∀ row ∈ ev.rows, ev.direction.passes m.exact (Binary64.exact row.1) = true) →
        x = ev.ceiling)) ∧
    (Measure.sum (ev.rows.map Prod.snd) >>= Measure.toReal) = .ok ev.ceiling := by
  have hsound := sound_of_ofTable h
  refine ⟨?_, ?_, ?_, ?_⟩
  · intro r s m n hr hs hle
    exact ⟨_, _, score_of_measure? hr, score_of_measure? hs, hsound.scoreOf_mono hle⟩
  · intro r x hx
    exact hsound.score_bounds hx
  · intro r m hm
    refine ⟨_, score_of_measure? hm, fun hnone => ?_, fun hall => ?_⟩
    · refine scoreOf_eq_floor fun row hrow => ?_
      rw [Measure.crosses_eq_passes]
      exact hnone row hrow
    · refine scoreOf_eq_ceiling fun row hrow => ?_
      rw [Measure.crosses_eq_passes]
      exact hall row hrow
  · exact Measure.sum_bind_toReal (by decide +kernel) _

/-- In a table downwards, with a double and a whole number side by side. Below all thresholds the
score is the ceiling, and above them the floor. -/
theorem score_within_steps :
    (∃ x y, steps.score (.number 0.15) = .ok x ∧ steps.score (.value (.int 1)) = .ok y ∧
        Scalar.le y x = true) ∧
      steps.score (.value (.int (-1))) = .ok steps.ceiling ∧
      steps.score (.value (.int 1)) = .ok steps.floor := by
  obtain ⟨hmono, _, hends, _⟩ := score_monotone_within_bounds ofTable_writtenSteps
  obtain ⟨x, hx, _, hall⟩ := hends (r := .value (.int (-1))) (m := .whole (-1)) rfl
  obtain ⟨y, hy, hnone, _⟩ := hends (r := .value (.int 1)) (m := .whole 1) rfl
  refine ⟨hmono (m := .number 0.15) (n := .whole 1) rfl rfl (by decide +kernel), ?_, ?_⟩
  · rw [hx, hall (by decide +kernel)]
  · rw [hy, hnone (by decide +kernel)]

end Evaluator

end StrayTouch
