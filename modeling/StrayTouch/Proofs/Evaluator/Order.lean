import StrayTouch.Proofs.Evaluator

/-!
Scores that are compared. Where every row that one reading crosses is crossed by another, with an
increment no smaller, the other reading scores no less; so it is with a greater number in a table
upwards, and with tables whose rows are easier to cross.
-/
namespace StrayTouch

variable {α : Type} [Scalar α]

/-- One threshold is crossed by whatever crosses another. -/
def Direction.Eases (d : Direction) (threshold other : α) : Prop :=
  match d with
  | above => Scalar.le other threshold = true
  | below => Scalar.le threshold other = true

namespace Evaluator

variable [Scalar.Monotone α]

/-- Two scans of rows side by side. The second does not stop before the first one does, so its sum
keeps ahead; once the first has stopped, it stays where it is. -/
theorem foldl_takeWhile_le {rows others : List (α × α)} {p q : α × α → Bool} {x y : α}
    (h : List.Forall₂ (fun r s => (p r = true → q s = true) ∧
      Scalar.le Scalar.zero r.2 = true ∧ Scalar.le r.2 s.2 = true) rows others)
    (hx : Scalar.le Scalar.zero x = true) (hxy : Scalar.le x y = true) :
    Scalar.le (((rows.takeWhile p).map Prod.snd).foldl (· + ·) x)
      (((others.takeWhile q).map Prod.snd).foldl (· + ·) y) = true := by
  induction h generalizing x y with
  | nil => exact hxy
  | @cons r s rows others hrs hrest ih =>
    obtain ⟨hcross, hr, hle⟩ := hrs
    cases hp : p r with
    | true =>
      rw [List.takeWhile_cons_of_pos hp, List.takeWhile_cons_of_pos (hcross hp)]
      exact ih (Scalar.Monotone.le_trans hx (Scalar.le_add hx hr))
        (Scalar.Monotone.add_le_add hx hxy hr hle)
    | false =>
      have hstop : ¬ p r = true := by simp [hp]
      have hincrements : ∀ z ∈ ((s :: others).takeWhile q).map Prod.snd,
          Scalar.le Scalar.zero z = true := by
        intro z hz
        obtain ⟨row, hrow, rfl⟩ := List.mem_map.mp hz
        have hall : List.Forall₂ (fun r s => (p r = true → q s = true) ∧
            Scalar.le Scalar.zero r.2 = true ∧ Scalar.le r.2 s.2 = true)
              (r :: rows) (s :: others) := .cons ⟨hcross, hr, hle⟩ hrest
        obtain ⟨first, _, _, hfirst, hrow⟩ :=
          exists_of_forall₂ hall ((List.takeWhile_sublist q).subset hrow)
        exact Scalar.Monotone.le_trans hfirst hrow
      rw [List.takeWhile_cons_of_neg hstop]
      exact Scalar.Monotone.le_trans hxy
        (Scalar.le_foldl_add (Scalar.Monotone.le_trans hx hxy) hincrements)

/-- A reading that crosses every row of one table scores no more there than one that crosses the
same rows of another. -/
theorem scoreOf_le_scoreOf {ev other : Evaluator α} (hs : ev.Sound) {m n : Measure α}
    (h : List.Forall₂ (fun r s =>
      (m.crosses ev.direction r.1 = true → n.crosses other.direction s.1 = true) ∧
        Scalar.le r.2 s.2 = true) ev.rows other.rows) :
    Scalar.le (ev.scoreOf m) (other.scoreOf n) = true := by
  have hrows : List.Forall₂ (fun r s =>
      (m.crosses ev.direction r.1 = true → n.crosses other.direction s.1 = true) ∧
        Scalar.le Scalar.zero r.2 = true ∧ Scalar.le r.2 s.2 = true) ev.rows other.rows := by
    have hnonneg : ∀ r ∈ ev.rows, Scalar.le Scalar.zero r.2 = true :=
      fun r hr => hs.nonneg r.2 (List.mem_map_of_mem hr)
    refine ((List.forall₂_and_left _ _).mpr ⟨hnonneg, h⟩).imp ?_
    rintro r s ⟨hr, hcross, hle⟩
    exact ⟨hcross, hr, hle⟩
  exact foldl_takeWhile_le hrows Scalar.Monotone.zero_le_zero Scalar.Monotone.zero_le_zero

/-- In one table, what crosses at least the same rows scores no less. -/
theorem scoreOf_le_of_crosses {ev : Evaluator α} (hs : ev.Sound) {m n : Measure α}
    (h : ∀ row ∈ ev.rows, m.crosses ev.direction row.1 = true →
      n.crosses ev.direction row.1 = true) :
    Scalar.le (ev.scoreOf m) (ev.scoreOf n) = true := by
  apply scoreOf_le_scoreOf hs
  rw [List.forall₂_same]
  intro r hr
  exact ⟨h r hr, Scalar.Monotone.le_refl (hs.nonneg r.2 (List.mem_map_of_mem hr))⟩

/-- In a table upwards a greater number scores no less. -/
theorem scoreOf_number_le (ev : Evaluator α) (hs : ev.Sound) (hd : ev.direction = .above) {x y : α}
    (h : Scalar.le x y = true) :
    Scalar.le (ev.scoreOf (.number x)) (ev.scoreOf (.number y)) = true := by
  refine scoreOf_le_of_crosses hs fun row _ hx => ?_
  rw [hd] at hx ⊢
  exact Scalar.Monotone.lt_of_lt_of_le hx h

omit [Scalar.Monotone α] in
/-- One table is eased to another: each of its rows becomes easier to cross and adds no less. -/
structure Eased (ev other : Evaluator α) : Prop where
  direction : other.direction = ev.direction
  rows : List.Forall₂ (fun r s => ev.direction.Eases r.1 s.1 ∧ Scalar.le r.2 s.2 = true)
    ev.rows other.rows

variable [Scalar.Ordered α]

theorem crosses_of_eases {d : Direction} {m : Measure α} {t u : α} (h : d.Eases t u)
    (hm : m.crosses d t = true) : m.crosses d u = true := by
  cases d with
  | above =>
    cases m with
    | number x => exact Scalar.Ordered.lt_of_le_of_lt h hm
    | whole n => exact Scalar.Ordered.ltInt_of_le h hm
  | below =>
    cases m with
    | number x => exact Scalar.Monotone.lt_of_lt_of_le hm h
    | whole n => exact Scalar.Ordered.intLt_of_le hm h

/-- In a table downwards a greater number scores no more. -/
theorem scoreOf_number_le_of_below (ev : Evaluator α) (hs : ev.Sound) (hd : ev.direction = .below)
    {x y : α} (h : Scalar.le x y = true) :
    Scalar.le (ev.scoreOf (.number y)) (ev.scoreOf (.number x)) = true := by
  refine scoreOf_le_of_crosses hs fun row _ hy => ?_
  rw [hd] at hy ⊢
  exact Scalar.Ordered.lt_of_le_of_lt h hy

namespace Eased

variable {ev other : Evaluator α}

theorem scoreOf_le (h : ev.Eased other) (hs : ev.Sound) (m : Measure α) :
    Scalar.le (ev.scoreOf m) (other.scoreOf m) = true := by
  apply scoreOf_le_scoreOf hs
  refine h.rows.imp ?_
  rintro r s ⟨hthreshold, hle⟩
  rw [h.direction]
  exact ⟨crosses_of_eases hthreshold, hle⟩

omit [Scalar.Ordered α] in
theorem ceiling_le (h : ev.Eased other) (hs : ev.Sound) :
    Scalar.le ev.ceiling other.ceiling = true := by
  apply Scalar.sum_le_sum
  rw [List.forall₂_map_left_iff, List.forall₂_map_right_iff]
  have hnonneg : ∀ r ∈ ev.rows, Scalar.le Scalar.zero r.2 = true :=
    fun r hr => hs.nonneg r.2 (List.mem_map_of_mem hr)
  refine ((List.forall₂_and_left _ _).mpr ⟨hnonneg, h.rows⟩).imp ?_
  rintro r s ⟨hr, _, hle⟩
  exact ⟨hr, hle⟩

/-- A reading that one table scores is scored no less by the other, and what one of them refuses
the other refuses as well. -/
theorem score_concur (h : ev.Eased other) (hs : ev.Sound) (r : Reading α) :
    Concur (fun x y => Scalar.le Scalar.zero x = true ∧ Scalar.le x y = true)
      (ev.score r) (other.score r) := by
  unfold score
  cases r.measure? with
  | some m => exact .ok ⟨(hs.scoreOf_bounds m).1, h.scoreOf_le hs m⟩
  | none =>
    have hempty : other.rows.isEmpty = ev.rows.isEmpty := by
      have hrows := h.rows
      generalize ev.rows = rows, other.rows = others at hrows
      cases hrows <;> rfl
    simp only [hempty, h.direction]
    split
    next => exact .ok ⟨Scalar.Monotone.zero_le_zero, Scalar.Monotone.zero_le_zero⟩
    next => exact .error _

end Eased

end Evaluator

/-- An answer through an eased table is a score no less, and fails where it failed. -/
theorem scoreFeature_concur [Scalar.Monotone α] [Scalar.Ordered α] {ev other : Evaluator α}
    (h : ev.Eased other) (hs : ev.Sound) (isShort : Bool)
    (feature : Seen α → Except Fault (Option (Reading α))) (seen : Seen α) :
    Concur (fun r s => ∃ x y, r = .number x ∧ s = .number y ∧
        Scalar.le Scalar.zero x = true ∧ Scalar.le x y = true)
      (scoreFeature isShort feature ev seen) (scoreFeature isShort feature other seen) := by
  have hfloor : ∃ x y, Reading.number ev.floor = .number x ∧ Reading.number other.floor = .number y ∧
      Scalar.le Scalar.zero x = true ∧ Scalar.le x y = true :=
    ⟨_, _, rfl, rfl, Scalar.Monotone.zero_le_zero, Scalar.Monotone.zero_le_zero⟩
  unfold scoreFeature
  cases isShort with
  | true => exact .ok hfloor
  | false =>
    simp only [Bool.false_eq_true, ↓reduceIte]
    cases feature seen with
    | error f => exact .error f
    | ok r? =>
      cases r? with
      | none => exact .ok hfloor
      | some r => exact (h.score_concur hs r).map fun x y hxy => ⟨x, y, rfl, rfl, hxy⟩

end StrayTouch
