import StrayTouch.Proofs.Engine.Range

/-!
Two verdicts held against one another. Where every member of a panel is given no less by one
verdict than its counterpart by the other, so are the totals and the aggregate.
-/
namespace StrayTouch

variable {α : Type} [Scalar α]

/-- What a classifier is given over all strokes. -/
def Member.total (policy : FailurePolicy) (m : Member α) (seen : List (Name × Seen α)) : α :=
  Scalar.sum (seen.map fun s => m.counted policy s.2)

/-- A classifier that is given no less on each of some strokes than another one on these strokes is
given no less over all. -/
theorem Member.total_le_total [Scalar.Monotone α] {policy other : FailurePolicy} {m k : Member α}
    {seen others : List (Name × Seen α)}
    (h : List.Forall₂ (fun s t => Scalar.le Scalar.zero (m.counted policy s.2) = true ∧
      Scalar.le (m.counted policy s.2) (k.counted other t.2) = true) seen others) :
    Scalar.le Scalar.zero (m.total policy seen) = true ∧
      Scalar.le (m.total policy seen) (k.total other others) = true := by
  have hsum : List.Forall₂ (fun x y => Scalar.le Scalar.zero x = true ∧ Scalar.le x y = true)
      (seen.map fun s => m.counted policy s.2) (others.map fun s => k.counted other s.2) := by
    rw [List.forall₂_map_left_iff, List.forall₂_map_right_iff]
    exact h
  refine ⟨Scalar.sum_nonneg fun x hx => ?_, Scalar.sum_le_sum hsum⟩
  obtain ⟨y, _, hy⟩ := exists_of_forall₂ hsum.flip hx
  exact hy.1

theorem Member.total_append_singleton (policy : FailurePolicy) (m : Member α)
    (seen : List (Name × Seen α)) (s : Name × Seen α) :
    m.total policy (seen ++ [s]) = m.total policy seen + m.counted policy s.2 := by
  simp [total, Scalar.sum, List.foldl_append]

namespace Member

variable {β : Type} {panel : List (Member α)}

omit [Scalar α] in
theorem distinct_entries (h : (panel.map fun m => m.tag.key).Nodup) (f : Member α → β) :
    Keyed.Distinct (panel.map fun m => (m.tag, f m)) := by
  rw [Keyed.Distinct, Keyed.marks, List.map_map]
  exact h

omit [Scalar α] in
theorem get?_entries (h : (panel.map fun m => m.tag.key).Nodup) {m : Member α} (hm : m ∈ panel)
    (f : Member α → β) : Keyed.get? (panel.map fun m => (m.tag, f m)) m.tag = some (f m) :=
  (Keyed.get?_eq_some_iff (distinct_entries h f)).mpr
    ⟨m.tag, rfl, List.mem_map_of_mem (f := fun m => (m.tag, f m)) hm⟩

end Member

/-- The score that stands under a contact and a tag. -/
def Verdict.score? (v : Verdict α) (id tag : Name) : Option α :=
  (Keyed.get? v.strokeScores id).bind fun row => Keyed.get? row tag

namespace Verdict.AccountsFor

variable {v w : Verdict α} {c d : Config α} {panel other : List (Member α)}
  {seen others : List (Name × Seen α)}

theorem decision_iff (h : v.AccountsFor c panel seen) :
    v.decision = .reject ↔ c.rejects v.aggregate = true := by
  rw [h.decision, h.threshold, Config.rejects_eq_true_iff]

theorem score?_eq (h : v.AccountsFor c panel seen)
    (hpanel : (panel.map fun m => m.tag.key).Nodup) {m : Member α} (hm : m ∈ panel) (id : Name) :
    v.score? id m.tag = (Keyed.get? seen id).map fun s => m.counted c.failurePolicy s := by
  rw [score?, h.strokeScores,
    Keyed.get?_map_snd _ fun s => panel.map fun m => (m.tag, m.counted c.failurePolicy s)]
  cases Keyed.get? seen id with
  | none => rfl
  | some s => exact Member.get?_entries hpanel hm fun m => m.counted c.failurePolicy s

theorem get?_scores (h : v.AccountsFor c panel seen)
    (hpanel : (panel.map fun m => m.tag.key).Nodup) {m : Member α} (hm : m ∈ panel) :
    Keyed.get? v.scores m.tag = some (m.total c.failurePolicy seen) := by
  rw [h.scores]
  exact Member.get?_entries hpanel hm fun m => m.total c.failurePolicy seen

/-- What a member is given stroke by stroke. -/
theorem column (h : v.AccountsFor c panel seen) (hpanel : (panel.map fun m => m.tag.key).Nodup)
    {m : Member α} (hm : m ∈ panel) :
    v.strokeScores.map (fun row => Keyed.get? row.2 m.tag) =
      (seen.map fun s => m.counted c.failurePolicy s.2).map some := by
  rw [h.strokeScores, List.map_map, List.map_map]
  exact List.map_congr_left fun s _ =>
    Member.get?_entries hpanel hm fun m => m.counted c.failurePolicy s.2

/-- A total is the sum of what stands under its tag stroke by stroke. -/
theorem exists_column (h : v.AccountsFor c panel seen)
    (hpanel : (panel.map fun m => m.tag.key).Nodup) {tag : Name}
    (htag : tag ∈ Keyed.keys v.scores) :
    ∃ xs : List α, v.strokeScores.map (fun row => Keyed.get? row.2 tag) = xs.map some ∧
      Keyed.get? v.scores tag = some (Scalar.sum xs) := by
  rw [h.scores, Keyed.keys, List.map_map] at htag
  obtain ⟨m, hm, rfl⟩ := List.mem_map.mp htag
  exact ⟨_, h.column hpanel hm, h.get?_scores hpanel hm⟩

theorem score?_eq_some_iff (h : v.AccountsFor c panel seen)
    (hseen : (seen.map fun s => s.1.key).Nodup) (hpanel : (panel.map fun m => m.tag.key).Nodup)
    {id tag : Name} {x : α} :
    v.score? id tag = some x ↔ ∃ s ∈ seen, s.1.key = id.key ∧
      ∃ m ∈ panel, m.tag.key = tag.key ∧ m.counted c.failurePolicy s.2 = x := by
  have hrows : Keyed.Distinct v.strokeScores := by
    simpa [Keyed.Distinct, Keyed.marks, h.strokeScores, Function.comp_def] using hseen
  have hrow (s : Seen α) := Member.distinct_entries hpanel fun m => m.counted c.failurePolicy s
  rw [score?, Option.bind_eq_some_iff]
  simp only [Keyed.get?_eq_some_iff hrows]
  rw [h.strokeScores]
  simp only [List.mem_map]
  constructor
  · rintro ⟨_, ⟨_, hid, s, hs, he⟩, hrest⟩
    obtain ⟨rfl, rfl⟩ := Prod.mk.inj he
    obtain ⟨_, htag, hentry⟩ := (Keyed.get?_eq_some_iff (hrow s.2)).mp hrest
    obtain ⟨m, hm, he⟩ := List.mem_map.mp hentry
    obtain ⟨rfl, rfl⟩ := Prod.mk.inj he
    exact ⟨s, hs, hid, m, hm, htag, rfl⟩
  · rintro ⟨s, hs, hid, m, hm, htag, rfl⟩
    exact ⟨_, ⟨_, hid, s, hs, rfl⟩, (Keyed.get?_eq_some_iff (hrow s.2)).mpr
      ⟨_, htag, List.mem_map_of_mem (f := fun m => (m.tag, m.counted c.failurePolicy s.2)) hm⟩⟩

theorem scores_eq (h : v.AccountsFor c panel seen) :
    v.scores = panel.map fun m => (m.tag, m.total c.failurePolicy seen) :=
  h.scores

theorem totals_le [Scalar.Monotone α] (hv : v.AccountsFor c panel seen)
    (hw : w.AccountsFor d other others)
    (h : List.Forall₂ (fun m k => m.tag = k.tag ∧
      Scalar.le Scalar.zero (m.total c.failurePolicy seen) = true ∧
        Scalar.le (m.total c.failurePolicy seen) (k.total d.failurePolicy others) = true)
      panel other) :
    List.Forall₂ (fun x y => x.1 = y.1 ∧ Scalar.le x.2 y.2 = true) v.scores w.scores ∧
      Scalar.le v.aggregate w.aggregate = true := by
  have hscores : List.Forall₂ (fun x y => x.1 = y.1 ∧ Scalar.le Scalar.zero x.2 = true ∧
      Scalar.le x.2 y.2 = true) v.scores w.scores := by
    rw [hv.scores_eq, hw.scores_eq, List.forall₂_map_left_iff, List.forall₂_map_right_iff]
    exact h
  refine ⟨hscores.imp fun _ _ hxy => ⟨hxy.1, hxy.2.2⟩, ?_⟩
  rw [hv.aggregate, hw.aggregate]
  apply Scalar.sum_le_sum
  rw [List.forall₂_map_left_iff, List.forall₂_map_right_iff]
  exact hscores.imp fun _ _ hxy => hxy.2

end Verdict.AccountsFor

end StrayTouch
