import StrayTouch.Proofs.Evaluator
import StrayTouch.Proofs.Number.Addition

/-!
Which tables are accepted, and as what: those whose rows are two numbers each, finite and with an
increment from zero on, and whose thresholds are strictly sorted in the direction of the table. The
order is looked at between neighbours only and holds between any two rows.
-/
namespace StrayTouch

variable {α : Type} [Scalar α]

theorem readPair_eq_ok_iff {vs : List Value} {r : α × α} :
    readPair vs = .ok r ↔ ∃ v w, vs = [v, w] ∧ v.toReal = .ok r.1 ∧ w.toReal = .ok r.2 := by
  unfold readPair
  split
  next => simp
  next v => simp [bind_eq_ok_iff]
  next v w =>
    simp only [bind_eq_ok_iff]
    constructor
    · rintro ⟨x, hx, y, hy, h⟩
      obtain rfl := Except.ok.inj h
      exact ⟨v, w, rfl, hx, hy⟩
    · rintro ⟨v', w', h, hx, hy⟩
      obtain ⟨rfl, rfl⟩ : v = v' ∧ w = w' := by simpa using h
      exact ⟨r.1, hx, r.2, hy, rfl⟩
  next => simp [bind_eq_ok_iff]

theorem Value.rowNumbers_eq_ok_iff {row : Value} {r : α × α} :
    row.rowNumbers = .ok r ↔
      ∃ v w, row.items = .ok [v, w] ∧ v.toReal = .ok r.1 ∧ w.toReal = .ok r.2 := by
  have hread : row.rowNumbers = .ok r ↔ (row.items >>= readPair) = .ok r := by
    unfold rowNumbers
    cases row.items >>= readPair (α := α) <;> simp
  rw [hread, bind_eq_ok_iff]
  constructor
  · rintro ⟨vs, hvs, h⟩
    obtain ⟨v, w, rfl, hv, hw⟩ := readPair_eq_ok_iff.mp h
    exact ⟨v, w, hvs, hv, hw⟩
  · rintro ⟨v, w, hvs, hv, hw⟩
    exact ⟨[v, w], hvs, readPair_eq_ok_iff.mpr ⟨v, w, rfl, hv, hw⟩⟩

/-- A row that stands for a threshold and an increment: what going through it gives are two values,
which are these numbers. -/
structure Value.ReadsAs (row : Value) (r : Float × Float) : Prop where
  items : ∃ v w, row.items = .ok [v, w] ∧ v.toReal = .ok r.1 ∧ w.toReal = .ok r.2
  threshold : Scalar.isFinite r.1 = true
  increment : Scalar.isFinite r.2 = true
  nonneg : Scalar.le Scalar.zero r.2 = true

theorem Value.readRow_eq_ok_iff_readsAs {row : Value} {r : Float × Float} :
    row.readRow = .ok r ↔ row.ReadsAs r := by
  rw [Evaluator.readRow_eq_ok_iff, rowNumbers_eq_ok_iff]
  constructor
  · rintro ⟨hitems, hthreshold, hincrement, hsign⟩
    exact ⟨hitems, hthreshold, hincrement,
      Scalar.Monotone.le_of_not_lt hincrement Scalar.Monotone.isFinite_zero hsign⟩
  · intro h
    exact ⟨h.items, h.threshold, h.increment, Exact.not_lt_of_le h.nonneg⟩

theorem Evaluator.readDirection_eq_ok_iff {v : Value} {d : Direction} :
    readDirection v = .ok d ↔ v = .text d.name := by
  constructor
  · intro h
    unfold readDirection at h
    split at h
    next name =>
      split at h
      next d' hd =>
        obtain rfl := Except.ok.inj h
        have hname := List.find?_some hd
        rw [beq_iff_eq] at hname
        rw [hname]
        rfl
      next => cases h
    next => cases h
  · rintro rfl
    simp [readDirection, Value.text, Direction.ofName?_name]

namespace Evaluator

/-- A table and a direction as an evaluator stands for them: the direction goes by its name, the
table can be gone through, its rows are those of the evaluator in their order, and the thresholds of
any two rows are strictly sorted, rising upwards and falling downwards. -/
structure Denotes (ev : Evaluator Float) (table direction : Value) : Prop where
  direction : direction = .text ev.direction.name
  rows : ∃ rows, table.items = .ok rows ∧ List.Forall₂ Value.ReadsAs rows ev.rows
  sorted : ev.rows.Pairwise fun row later =>
    match ev.direction with
    | .above => Scalar.lt row.1 later.1 = true
    | .below => Scalar.lt later.1 row.1 = true

theorem sorted_iff {ev : Evaluator Float} :
    (ev.rows.IsChain fun row next => ev.direction.follows row.1 next.1 = true) ↔
      ev.rows.Pairwise fun row later =>
        match ev.direction with
        | .above => Scalar.lt row.1 later.1 = true
        | .below => Scalar.lt later.1 row.1 = true := by
  rw [isChain_follows_iff]
  cases ev.direction <;> rfl

theorem ofTable_eq_ok_iff {table direction : Value} {ev : Evaluator Float} :
    ofTable table direction = .ok ev ↔ ev.Denotes table direction := by
  have hrows (rows : List Value) : List.Forall₂ (fun row r => row.readRow = .ok r) rows ev.rows ↔
      List.Forall₂ Value.ReadsAs rows ev.rows := by
    simp only [Value.readRow_eq_ok_iff_readsAs]
  unfold ofTable
  simp only [bind_eq_ok_iff, readDirection_eq_ok_iff, ofRows_eq_ok_iff, hrows]
  constructor
  · rintro ⟨d, hd, rows, hi, rfl, hread, hordered⟩
    exact ⟨hd, ⟨rows, hi, hread⟩, sorted_iff.mp hordered⟩
  · rintro ⟨hd, ⟨rows, hi, hread⟩, hsorted⟩
    exact ⟨ev.direction, hd, rows, hi, rfl, hread, sorted_iff.mpr hsorted⟩

/-- A table and a direction give an evaluator exactly if there is one that stands for them, and then
they give this one; in every other case they are refused. -/
theorem ofTable_accepts_exactly (table direction : Value) :
    (∀ ev, ofTable table direction = .ok ev ↔ ev.Denotes table direction) ∧
      ((∃ f, ofTable (α := Float) table direction = .error f) ↔
        ∀ ev : Evaluator Float, ¬ ev.Denotes table direction) := by
  refine ⟨fun ev => ofTable_eq_ok_iff, ?_⟩
  constructor
  · rintro ⟨f, hf⟩ ev hev
    have hok := ofTable_eq_ok_iff.mpr hev
    rw [hf] at hok
    cases hok
  · intro hnone
    cases h : ofTable (α := Float) table direction with
    | error f => exact ⟨f, rfl⟩
    | ok ev => exact absurd (ofTable_eq_ok_iff.mp h) (hnone ev)

/-- Two rows, the characters of a text and the keys of a mapping. -/
def unusualRows : List Value :=
  [.text "12", .map [(.int 2, .null), (.text "0.5", .null)]]

example : (ofTable (α := Float) (.list unusualRows) (.text "above")).toOption.map
    (fun ev => (ev.rows, ev.direction)) = some ([(1.0, 2.0), (2.0, 0.5)], .above) := by
  decide +kernel

-- The other way round the thresholds do not descend.
example : kind? (ofTable (α := Float) (.list unusualRows) (.text "below")) =
    some .configuration := by decide +kernel

example : kind? (ofTable (α := Float) (.list (.text "123" :: unusualRows)) (.text "above")) =
    some .configuration := by decide +kernel

end Evaluator

end StrayTouch
