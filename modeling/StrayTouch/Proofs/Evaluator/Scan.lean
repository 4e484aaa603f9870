import StrayTouch.Proofs.Evaluator.Order
import StrayTouch.Proofs.Number.Addition

/-!
A table is scanned up to the first row that is not crossed. Its thresholds follow one another in
the direction of the scan, so that no row after that one is crossed either, and the scan adds up
all that is crossed anywhere in the table.
-/
namespace StrayTouch

/-- The exact value of a measure, with which thresholds are compared. -/
def Measure.exact : Measure Float → Exact
  | number x => Binary64.exact x
  | whole n => .ofInt n

/-- Whether a value lies beyond a threshold in the direction of a table. -/
def Direction.passes (d : Direction) (value threshold : Exact) : Bool :=
  match d with
  | above => threshold.lt value
  | below => value.lt threshold

theorem Measure.crosses_eq_passes (m : Measure Float) (d : Direction) (t : Float) :
    m.crosses d t = d.passes m.exact (Binary64.exact t) := by
  cases m <;> cases d <;> rfl

theorem Direction.passes_nan (d : Direction) (t : Exact) : d.passes .nan t = false := by
  cases d with
  | above => exact t.lt_nan
  | below => exact t.nan_lt

/-- Where every element that fulfils a condition has only such before it, those that fulfil it are
the first ones. -/
theorem takeWhile_eq_filter {β : Type} {p : β → Bool} {xs : List β}
    (h : xs.Pairwise fun x y => p y = true → p x = true) : xs.takeWhile p = xs.filter p := by
  induction h with
  | nil => rfl
  | @cons x xs hx _ ih =>
    by_cases hp : p x = true
    · rw [List.takeWhile_cons_of_pos hp, List.filter_cons_of_pos hp, ih]
    · have hnone : xs.filter p = [] :=
        List.filter_eq_nil_iff.mpr fun y hy hpy => hp (hx y hy hpy)
      rw [List.takeWhile_cons_of_neg hp, List.filter_cons_of_neg hp, hnone]

namespace Evaluator

variable {α : Type} [Scalar α] [Scalar.Monotone α] [Scalar.Ordered α] {ev : Evaluator α}

/-- The order that is looked at between neighbours holds between any two rows: the earlier one is
crossed by whatever crosses the later one. -/
theorem Sound.pairwise_eases (h : ev.Sound) :
    ev.rows.Pairwise fun row later => ev.direction.Eases later.1 row.1 := by
  refine (isChain_follows_iff.mp h.ordered).imp ?_
  intro row later hrow
  cases hd : ev.direction with
  | above =>
    rw [hd] at hrow
    exact Scalar.Ordered.le_of_lt hrow
  | below =>
    rw [hd] at hrow
    exact Scalar.Ordered.le_of_lt hrow

theorem Sound.crossed_eq_filter (h : ev.Sound) (m : Measure α) :
    ev.crossed m = ev.rows.filter fun row => m.crosses ev.direction row.1 :=
  takeWhile_eq_filter (h.pairwise_eases.imp fun heases => crosses_of_eases heases)

/-- The scan of a table that has been built gives the sum of the increments of all rows whose
threshold the value lies beyond, over the whole table. These rows are the first ones of the table,
and there are none where the value is no number. -/
theorem score_eq_sum_over_table {table direction : Value} {ev : Evaluator Float}
    (h : ofTable table direction = .ok ev) {r : Reading Float} {m : Measure Float}
    (hm : r.measure? = some m) :
    let passed := ev.rows.filter fun row => ev.direction.passes m.exact (Binary64.exact row.1)
    ev.score r = .ok (Scalar.sum (passed.map Prod.snd)) ∧ passed <+: ev.rows ∧
      (m.exact = .nan → passed = []) := by
  intro passed
  have hcrossed : ev.crossed m = passed := by
    rw [(sound_of_ofTable h).crossed_eq_filter]
    simp only [Measure.crosses_eq_passes]
    rfl
  refine ⟨?_, ?_, ?_⟩
  · rw [score, hm, ← hcrossed]
    rfl
  · rw [← hcrossed]
    exact List.takeWhile_prefix _
  · intro hnan
    refine List.filter_eq_nil_iff.mpr fun row _ => ?_
    rw [hnan, Direction.passes_nan]
    exact Bool.false_ne_true

/-- A table downwards as it may be written, with a text among its numbers. -/
def writtenSteps : Value :=
  .list [.list [.atom (.float 0.3), .int 1], .tuple [.atom (.float 0.2), .int 1],
    .list [.atom (.text "0.1"), .int 2], .list [.int 0, .atom (.float 0.5)]]

def steps : Evaluator Float :=
  ⟨[(0.3, 1.0), (0.2, 1.0), (0.1, 2.0), (0.0, 0.5)], .below⟩

theorem ofTable_writtenSteps : ofTable writtenSteps (.text "below") = .ok steps :=
  eq_ok_of_toOption (by decide +kernel)

/-- A whole number far below all thresholds, zero, which does not lie below itself, and a value that
is no number. -/
theorem score_steps :
    steps.score (.value (.int (-2 ^ 80))) = .ok 4.5 ∧ steps.score (.value (.int 0)) = .ok 4.0 ∧
      steps.score (.value (.atom (.nan 0))) = .ok Scalar.zero := by
  obtain ⟨hlow, _⟩ := score_eq_sum_over_table ofTable_writtenSteps
    (r := .value (.int (-2 ^ 80))) (m := .whole (-2 ^ 80)) rfl
  obtain ⟨hzero, _⟩ := score_eq_sum_over_table ofTable_writtenSteps
    (r := .value (.int 0)) (m := .whole 0) rfl
  obtain ⟨hscore, _, hnone⟩ := score_eq_sum_over_table ofTable_writtenSteps
    (r := .value (.atom (.nan 0))) (m := .number Binary64.notANumber) rfl
  rw [hnone (by decide +kernel)] at hscore
  refine ⟨hlow.trans (congrArg Except.ok ?_), hzero.trans (congrArg Except.ok ?_), hscore⟩
  · decide +kernel
  · decide +kernel

end Evaluator

end StrayTouch
