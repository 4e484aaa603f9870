import StrayTouch.Classifier.Basic
import StrayTouch.Proofs.Outcome
import StrayTouch.Proofs.Scalar

/-!
What a table that has been built guarantees, and that every score lies between its floor and its
ceiling.
-/
namespace StrayTouch

variable {α : Type} [Scalar α]

namespace Evaluator

/-- The rows are finite, no increment is negative, and the thresholds follow one another in the
direction of the table. -/
structure Sound (ev : Evaluator α) : Prop where
  finite : ∀ row ∈ ev.rows, Scalar.isFinite row.1 = true ∧ Scalar.isFinite row.2 = true
  increments : ∀ row ∈ ev.rows, Scalar.lt row.2 Scalar.zero = false
  ordered : ev.rows.IsChain fun row next => ev.direction.follows row.1 next.1 = true

instance (ev : Evaluator α) : Decidable ev.Sound :=
  decidable_of_iff
    ((∀ row ∈ ev.rows, Scalar.isFinite row.1 = true ∧ Scalar.isFinite row.2 = true) ∧
      (∀ row ∈ ev.rows, Scalar.lt row.2 Scalar.zero = false) ∧
      ev.rows.IsChain fun row next => ev.direction.follows row.1 next.1 = true)
    ⟨fun h => ⟨h.1, h.2.1, h.2.2⟩, fun h => ⟨h.finite, h.increments, h.ordered⟩⟩

instance : DecidableEq (Evaluator Float) := fun ev other =>
  decidable_of_iff (ev.rows = other.rows ∧ ev.direction = other.direction) (by
    cases ev
    cases other
    simp)

theorem disorder?_eq_none_iff {d : Direction} {rows : List (α × α)} :
    d.disorder? rows = none ↔ rows.IsChain fun row next => d.follows row.1 next.1 = true := by
  fun_induction Direction.disorder? d rows with
  | case1 => simp
  | case2 => simp
  | case3 row next rest h ih => simp [h, ih]
  | case4 row next rest h => simp [h]

/-- Where neighbours follow one another, any two rows do. -/
theorem isChain_follows_iff [Scalar.Monotone α] [Scalar.Ordered α] {d : Direction}
    {rows : List (α × α)} : (rows.IsChain fun row next => d.follows row.1 next.1 = true) ↔
      rows.Pairwise fun row later => d.follows row.1 later.1 = true := by
  have htrans : IsTrans (α × α) fun row later => d.follows row.1 later.1 = true := by
    constructor
    intro x y z hxy hyz
    cases d with
    | above => exact Scalar.Monotone.lt_of_lt_of_le hxy (Scalar.Ordered.le_of_lt hyz)
    | below => exact Scalar.Monotone.lt_of_lt_of_le hyz (Scalar.Ordered.le_of_lt hxy)
  exact List.isChain_iff_pairwise

/-- A row is accepted if it reads as two numbers, both finite and the second not negative. -/
theorem readRow_eq_ok_iff {row : Value} {r : α × α} :
    row.readRow = .ok r ↔ row.rowNumbers = .ok r ∧ Scalar.isFinite r.1 = true ∧
      Scalar.isFinite r.2 = true ∧ Scalar.lt r.2 Scalar.zero = false := by
  unfold Value.readRow
  rw [bind_eq_ok_iff]
  constructor
  · rintro ⟨numbers, hn, h⟩
    dsimp only at h
    split at h
    next => cases h
    next hf =>
      split at h
      next => cases h
      next hi =>
        obtain rfl := Except.ok.inj h
        simp only [Bool.not_eq_true', Bool.and_eq_false_iff, not_or, Bool.not_eq_false] at hf
        exact ⟨hn, hf.1, hf.2, by simpa using hi⟩
  · rintro ⟨hn, hthreshold, hincrement, hi⟩
    exact ⟨r, hn, by simp [hthreshold, hincrement, hi]⟩

/-- Written rows are accepted if each of them is and their thresholds follow one another. -/
theorem ofRows_eq_ok_iff {d : Direction} {rows : List Value} {ev : Evaluator α} :
    ofRows d rows = .ok ev ↔ ev.direction = d ∧
      List.Forall₂ (fun row r => row.readRow = .ok r) rows ev.rows ∧
      ev.rows.IsChain fun row next => d.follows row.1 next.1 = true := by
  unfold ofRows
  rw [bind_eq_ok_iff]
  simp only [← disorder?_eq_none_iff, ← mapM_eq_ok_iff]
  constructor
  · rintro ⟨read, hr, h⟩
    split at h
    next => cases h
    next ho =>
      obtain rfl := Except.ok.inj h
      exact ⟨rfl, hr, ho⟩
  · rintro ⟨rfl, hr, ho⟩
    exact ⟨ev.rows, hr, by rw [ho]⟩

/-- A table that has been built from written rows is sound. -/
theorem sound_of_ofRows {d : Direction} {rows : List Value} {ev : Evaluator α}
    (h : ofRows d rows = .ok ev) : ev.Sound := by
  obtain ⟨rfl, hrows, hordered⟩ := ofRows_eq_ok_iff.mp h
  have hread : ∀ r ∈ ev.rows, Scalar.isFinite r.1 = true ∧ Scalar.isFinite r.2 = true ∧
      Scalar.lt r.2 Scalar.zero = false := by
    intro r hm
    obtain ⟨row, _, hrow⟩ := exists_of_forall₂ hrows hm
    exact (readRow_eq_ok_iff.mp hrow).2
  exact ⟨fun r hm => ⟨(hread r hm).1, (hread r hm).2.1⟩, fun r hm => (hread r hm).2.2, hordered⟩

theorem sound_of_ofTable {table direction : Value} {ev : Evaluator α}
    (h : ofTable table direction = .ok ev) : ev.Sound := by
  obtain ⟨d, _, h⟩ := bind_eq_ok_iff.mp h
  obtain ⟨rows, _, h⟩ := bind_eq_ok_iff.mp h
  exact sound_of_ofRows h

theorem scoreOf_eq_floor {ev : Evaluator α} {m : Measure α}
    (h : ∀ row ∈ ev.rows, m.crosses ev.direction row.1 = false) : ev.scoreOf m = ev.floor := by
  have hnone : ev.crossed m = [] := by
    unfold crossed
    cases hrows : ev.rows with
    | nil => rfl
    | cons row rows =>
      rw [hrows] at h
      rw [List.takeWhile_cons_of_neg (by simp [h row List.mem_cons_self])]
  rw [scoreOf, hnone]
  rfl

variable [Scalar.Monotone α] {ev : Evaluator α}

theorem Sound.nonneg (h : ev.Sound) :
    ∀ x ∈ ev.rows.map Prod.snd, Scalar.le Scalar.zero x = true := by
  intro x hx
  obtain ⟨row, hrow, rfl⟩ := List.mem_map.mp hx
  exact Scalar.Monotone.le_of_not_lt (h.finite row hrow).2 Scalar.Monotone.isFinite_zero
    (h.increments row hrow)

theorem Sound.ceiling_nonneg (h : ev.Sound) : Scalar.le Scalar.zero ev.ceiling = true :=
  Scalar.sum_nonneg h.nonneg

/-- A score adds up a part of the increments, which the ceiling adds up all. -/
theorem Sound.scoreOf_bounds (h : ev.Sound) (m : Measure α) :
    Scalar.le ev.floor (ev.scoreOf m) = true ∧ Scalar.le (ev.scoreOf m) ev.ceiling = true := by
  have hs : ((ev.crossed m).map Prod.snd).Sublist (ev.rows.map Prod.snd) :=
    (List.takeWhile_sublist _).map Prod.snd
  exact ⟨Scalar.sum_nonneg fun x hx => h.nonneg x (hs.subset hx),
    Scalar.sum_le_sum_of_sublist hs h.nonneg⟩

theorem Sound.score_bounds (h : ev.Sound) {r : Reading α} {x : α} (hx : ev.score r = .ok x) :
    Scalar.le ev.floor x = true ∧ Scalar.le x ev.ceiling = true := by
  unfold score at hx
  split at hx
  next m _ =>
    obtain rfl := Except.ok.inj hx
    exact h.scoreOf_bounds m
  next =>
    split at hx
    next =>
      obtain rfl := Except.ok.inj hx
      exact ⟨Scalar.Monotone.zero_le_zero, h.ceiling_nonneg⟩
    next => cases hx

end Evaluator

/-- An answer through the table lies between floor and ceiling. -/
theorem scoreFeature_bounds [Scalar.Monotone α] {ev : Evaluator α} (h : ev.Sound)
    {isShort : Bool} {feature : Seen α → Except Fault (Option (Reading α))} {seen : Seen α}
    {r : Reading α} (hr : scoreFeature isShort feature ev seen = .ok r) :
    ∃ x, r = .number x ∧ Scalar.le ev.floor x = true ∧ Scalar.le x ev.ceiling = true := by
  have hfloor : Scalar.le ev.floor ev.floor = true ∧ Scalar.le ev.floor ev.ceiling = true :=
    ⟨Scalar.Monotone.zero_le_zero, h.ceiling_nonneg⟩
  unfold scoreFeature at hr
  split at hr
  next =>
    cases hr
    exact ⟨_, rfl, hfloor⟩
  next =>
    cases hf : feature seen with
    | error f => simp [hf] at hr
    | ok value =>
      cases value with
      | none =>
        simp only [hf] at hr
        cases hr
        exact ⟨_, rfl, hfloor⟩
      | some value =>
        simp only [hf] at hr
        cases hx : ev.score value with
        | error f => simp [hx, Except.map] at hr
        | ok x =>
          rw [hx] at hr
          cases hr
          exact ⟨x, rfl, h.score_bounds hx⟩

end StrayTouch
