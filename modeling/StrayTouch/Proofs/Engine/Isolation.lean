import StrayTouch.Proofs.Engine.Comparison

/-!
What failures do to a verdict. A classifier that fails on a stroke changes its own score for that
stroke alone, and what counts instead lies at the floor or at the ceiling of its table, so that the
verdicts under both policies enclose the one without failures.
-/
namespace StrayTouch

variable {α : Type} [Scalar α]

namespace Classifier

omit [Scalar α] in
/-- The classifier with some faults instead of its answers, each on the stroke at one place. -/
def failing (k : Classifier α) (faults : Nat → Option Fault) : Classifier α where
  tag := k.tag
  feature := k.feature
  answer := fun ev seen =>
    match faults seen.place with
    | some f => .error f
    | none => k.answer ev seen

end Classifier

namespace Member

omit [Scalar α] in
def failing (m : Member α) (faults : Nat → Option Fault) : Member α :=
  ⟨m.classifier.failing faults, m.tag, m.evaluator⟩

variable {m : Member α} {faults : Nat → Option Fault} {seen : Seen α}

theorem counted_failing_of_some {f : Fault} (policy : FailurePolicy)
    (h : faults seen.place = some f) :
    (m.failing faults).counted policy seen = policy.substitute m.evaluator := by
  have ho : (m.failing faults).outcome seen = .error f := by
    simp [outcome, failing, Classifier.failing, h]
  unfold counted
  rw [ho]
  cases policy <;> rfl

theorem counted_failing_of_none (policy : FailurePolicy) (h : faults seen.place = none) :
    (m.failing faults).counted policy seen = m.counted policy seen := by
  have ho : (m.failing faults).outcome seen = m.outcome seen := by
    simp [outcome, failing, Classifier.failing, h]
  unfold counted
  rw [ho]
  rfl

theorem counted_congr (policy other : FailurePolicy) (h : m.fails seen = false) :
    m.counted policy seen = m.counted other seen := by
  unfold fails at h
  unfold counted
  split at h
  next x ho => rw [ho]
  next => cases h

/-- With failures that count as the floor, no score is higher than without them; with failures
that count as the ceiling, none is lower. -/
theorem counted_failing_bounds [Scalar.Monotone α] (faults : Nat → Option Fault)
    (policy : FailurePolicy)
    (hs : m.evaluator.Sound) (hk : m.classifier.ScoresByTable) (h : m.fails seen = false) :
    Scalar.le Scalar.zero ((m.failing faults).counted .floor seen) = true ∧
      Scalar.le ((m.failing faults).counted .floor seen) (m.counted policy seen) = true ∧
      Scalar.le (m.counted policy seen) ((m.failing faults).counted .ceiling seen) = true := by
  obtain ⟨hl, hu⟩ : m.evaluator.InRange (m.counted policy seen) :=
    (inRange_counted_iff policy hs).mpr (answersInRange_of_scoresByTable hs hk seen)
  cases hf : faults seen.place with
  | some f =>
    rw [counted_failing_of_some .floor hf, counted_failing_of_some .ceiling hf]
    exact ⟨Scalar.Monotone.zero_le_zero, hl, hu⟩
  | none =>
    rw [counted_failing_of_none .floor hf, counted_failing_of_none .ceiling hf,
      counted_congr .floor policy h, counted_congr .ceiling policy h]
    exact ⟨hl, Scalar.Monotone.le_refl hl, Scalar.Monotone.le_refl hl⟩

end Member

namespace Verdict

/-- One verdict is no more severe than another on the same contacts and tags. -/
structure Below (v w : Verdict α) : Prop where
  contacts : v.strokeScores.map Prod.fst = w.strokeScores.map Prod.fst
  scores : List.Forall₂ (fun x y => x.1 = y.1 ∧ Scalar.le x.2 y.2 = true) v.scores w.scores
  aggregate : Scalar.le v.aggregate w.aggregate = true
  decision : v.decision = .reject → w.decision = .reject

variable {v w : Verdict α} {c d : Config α} {panel other : List (Member α)}
  {seen : List (Name × Seen α)}

theorem AccountsFor.below [Scalar.Monotone α] (hv : v.AccountsFor c panel seen)
    (hw : w.AccountsFor d other seen) (ht : c.tiePolicy = d.tiePolicy)
    (hr : c.rejectThreshold = d.rejectThreshold)
    (h : List.Forall₂ (fun m k => m.tag = k.tag ∧ ∀ s ∈ seen,
      Scalar.le Scalar.zero (m.counted c.failurePolicy s.2) = true ∧
        Scalar.le (m.counted c.failurePolicy s.2) (k.counted d.failurePolicy s.2) = true)
      panel other) : v.Below w := by
  obtain ⟨hscores, haggregate⟩ := hv.totals_le hw (h.imp fun m k hmk =>
    ⟨hmk.1, Member.total_le_total (List.forall₂_same.mpr hmk.2)⟩)
  refine ⟨?_, hscores, haggregate, hv.reject_of_le hw ht hr haggregate⟩
  rw [hv.strokeScores, hw.strokeScores, List.map_map, List.map_map]
  rfl

end Verdict

private theorem forall₂_mapIdx_right {β γ : Type} {R : β → γ → Prop} {f : Nat → β → γ}
    {xs : List β} (h : ∀ i, ∀ x ∈ xs, R x (f i x)) : List.Forall₂ R xs (xs.mapIdx f) := by
  induction xs generalizing f with
  | nil => exact .nil
  | cons x xs ih =>
    rw [List.mapIdx_cons]
    exact .cons (h 0 x List.mem_cons_self)
      (ih fun i y hy => h (i + 1) y (List.mem_cons_of_mem _ hy))

private theorem forall₂_mapIdx_left {β γ : Type} {R : γ → β → Prop} {f : Nat → β → γ}
    {xs : List β} (h : ∀ i, ∀ x ∈ xs, R (f i x) x) : List.Forall₂ R (xs.mapIdx f) xs :=
  (forall₂_mapIdx_right (R := flip R) h).flip

namespace Engine

/-- The engine under a policy, where classifier `i` has the fault `faults i place` on the stroke at
that place. -/
def failing (e : Engine α) (policy : FailurePolicy) (faults : Nat → Nat → Option Fault) :
    Engine α where
  config := { e.config with failurePolicy := policy }
  classifiers := e.classifiers.mapIdx fun i k => k.failing (faults i)

omit [Scalar α] in
private theorem seats_failing {c : Config α} {ks : List (Classifier α)} {panel : List (Member α)}
    (h : List.Forall₂ (Member.Seats c) ks panel) (policy : FailurePolicy)
    (faults : Nat → Nat → Option Fault) :
    List.Forall₂ (Member.Seats { c with failurePolicy := policy })
      (ks.mapIdx fun i k => k.failing (faults i))
      (panel.mapIdx fun i m => m.failing (faults i)) := by
  induction h generalizing faults with
  | nil => exact .nil
  | cons hk _ ih =>
    rw [List.mapIdx_cons, List.mapIdx_cons]
    exact .cons ⟨congrArg (·.failing (faults 0)) hk.classifier, hk.tag, hk.evaluator⟩
      (ih fun i => faults (i + 1))

omit [Scalar α] in
private theorem map_key_failing (panel : List (Member α)) (faults : Nat → Nat → Option Fault) :
    ((panel.mapIdx fun i m => m.failing (faults i)).map fun m => m.tag.key) =
      panel.map fun m => m.tag.key := by
  induction panel generalizing faults with
  | nil => rfl
  | cons m panel ih =>
    rw [List.mapIdx_cons, List.map_cons, List.map_cons]
    exact congrArg _ (ih fun i => faults (i + 1))

omit [Scalar α] in
theorem panel_failing {e : Engine α} {panel : List (Member α)}
    (hp : Member.panel e.config e.classifiers = .ok panel) (policy : FailurePolicy)
    (faults : Nat → Nat → Option Fault) :
    Member.panel (e.failing policy faults).config (e.failing policy faults).classifiers =
      .ok (panel.mapIdx fun i m => m.failing (faults i)) := by
  obtain ⟨hs, hd⟩ := Member.panel_eq_ok_iff.mp hp
  refine Member.panel_eq_ok_iff.mpr ⟨seats_failing hs policy faults, ?_⟩
  rw [map_key_failing]
  exact hd

omit [Scalar α] in
theorem place_of_seen {g : Gesture α} {place : Nat} {s : Name × Seen α}
    (h : g.seen[place]? = some s) : s.2.place = place := by
  simp only [Gesture.seen, List.getElem?_map, List.getElem?_zipIdx, Option.map_eq_some_iff] at h
  obtain ⟨_, ⟨_, _, rfl⟩, rfl⟩ := h
  simp

theorem accountsFor_failing {e : Engine α} {g : Gesture α} {dpi : α}
    {log : List (Gesture.Entry α)} (hr : g.Represents dpi log) (hs : g.strokeCount ≠ 0)
    {panel : List (Member α)} (hp : Member.panel e.config e.classifiers = .ok panel)
    (policy : FailurePolicy) (faults : Nat → Nat → Option Fault) :
    ∃ w, ((e.failing policy faults).step g .evaluate).1 = .verdict w ∧
      w.AccountsFor (e.failing policy faults).config
        (panel.mapIdx fun i m => m.failing (faults i))
        (g.freezeAll.withPhase .evaluating).seen := by
  have hpanel := panel_failing hp policy faults
  exact ⟨_, congrArg Prod.fst (step_evaluate_of_panel hpanel hr.capturing hs),
    accountsFor_of_represents _ hr (Member.panel_eq_ok_iff.mp hpanel).2⟩

/-- Whatever classifiers are made to fail on whatever strokes: every other score stays as it is,
the scores, the totals and the aggregate lie between those under the two policies, and the gesture
is not rejected because of a failure under the one policy nor accepted because of it under the
other. -/
theorem failures_enclose_verdict [Scalar.Monotone α] (e : Engine α) (hc : e.config.Sound)
    (hk : ∀ k ∈ e.classifiers, k.ScoresByTable) (dpi : α) (ts : List Touch)
    (faults : Nat → Nat → Option Fault) {v : Verdict α}
    (hv : (e.step ((Gesture.empty dpi).follow ts).2 .evaluate).1 = .verdict v)
    (hf : v.failed = []) :
    let g := ((Gesture.empty dpi).follow ts).2
    ∃ low high, ((e.failing .floor faults).step g .evaluate).1 = .verdict low ∧
      ((e.failing .ceiling faults).step g .evaluate).1 = .verdict high ∧
      (∀ place i, faults i place = none →
        low.entry? place i = v.entry? place i ∧ high.entry? place i = v.entry? place i) ∧
      low.Below v ∧ v.Below high := by
  intro g
  obtain ⟨entries, _, hr⟩ := (Gesture.represents_empty dpi).follow ts
  obtain ⟨panel, hp, _, hs, hverdict⟩ := exists_panel_of_verdict hv
  obtain ⟨hseats, hd⟩ := Member.panel_eq_ok_iff.mp hp
  have hown := e.accountsFor_of_represents hr hd
  rw [← hverdict] at hown
  obtain ⟨low, hlow, hlowAccount⟩ := accountsFor_failing hr hs hp .floor faults
  obtain ⟨high, hhigh, hhighAccount⟩ := accountsFor_failing hr hs hp .ceiling faults
  have hnone := Member.failedTags_eq_nil_iff.mp (hown.failed.symm.trans hf)
  have hfine : ∀ m ∈ panel, ∀ s ∈ (g.freezeAll.withPhase .evaluating).seen,
      m.fails s.2 = false := fun m hm s hseen => hnone m hm s.2 (List.mem_map_of_mem hseen)
  have hpanel : ∀ m ∈ panel, m.evaluator.Sound ∧ m.classifier.ScoresByTable := by
    intro m hm
    obtain ⟨k, hmem, hseat⟩ := exists_of_forall₂ hseats hm
    exact ⟨hc.evaluatorFor hseat.evaluator, hseat.classifier ▸ hk k hmem⟩
  refine ⟨low, high, hlow, hhigh, fun place i hn => ?_, ?_, ?_⟩
  · rw [hlowAccount.entry?, hhighAccount.entry?, hown.entry?, List.getElem?_mapIdx]
    cases hseen : (g.freezeAll.withPhase .evaluating).seen[place]? with
    | none => exact ⟨rfl, rfl⟩
    | some s =>
    cases hm : panel[i]? with
    | none => exact ⟨rfl, rfl⟩
    | some m =>
      have hplace : faults i s.2.place = none := by
        rw [place_of_seen hseen]
        exact hn
      have hsame := hfine m (List.mem_of_getElem? hm) s (List.mem_of_getElem? hseen)
      simp only [Option.bind_some, Option.map_some, Member.counted_failing_of_none _ hplace,
        Member.counted_congr _ e.config.failurePolicy hsame]
      exact ⟨rfl, rfl⟩
  · refine hlowAccount.below hown rfl rfl (forall₂_mapIdx_left fun i m hm => ⟨rfl, ?_⟩)
    intro s hseen
    obtain ⟨hl, hlm, _⟩ := Member.counted_failing_bounds (faults i)
      e.config.failurePolicy (hpanel m hm).1 (hpanel m hm).2 (hfine m hm s hseen)
    exact ⟨hl, hlm⟩
  · refine hown.below hhighAccount rfl rfl (forall₂_mapIdx_right fun i m hm => ⟨rfl, ?_⟩)
    intro s hseen
    obtain ⟨hl, hlm, hmu⟩ := Member.counted_failing_bounds (faults i)
      e.config.failurePolicy (hpanel m hm).1 (hpanel m hm).2 (hfine m hm s hseen)
    exact ⟨Scalar.Monotone.le_trans hl hlm, hmu⟩

theorem sound_contactCounter : contactCounter.config.Sound where
  dpi_finite := by decide +kernel
  dpi_positive := by decide +kernel
  threshold_finite := by decide +kernel
  tables := by decide +kernel

/-- A contact counter that fails on the first stroke. -/
def missesFirst (i place : Nat) : Option Fault :=
  if i = 0 ∧ place = 0 then some .featureUndefined else none

theorem failures_enclose_inTurns :
    ∃ v low high, (contactCounter.step ((Gesture.empty 160.0).follow inTurns).2
        .evaluate).1 = .verdict v ∧
      ((contactCounter.failing .floor missesFirst).step ((Gesture.empty 160.0).follow inTurns).2
        .evaluate).1 = .verdict low ∧
      ((contactCounter.failing .ceiling missesFirst).step
        ((Gesture.empty 160.0).follow inTurns).2 .evaluate).1 = .verdict high ∧
      low.Below v ∧ v.Below high := by
  obtain ⟨v, hv⟩ := Option.isSome_iff_exists.mp (show (contactCounter.step
    ((Gesture.empty 160.0).follow inTurns).2 .evaluate).1.verdict?.isSome = true by decide +kernel)
  have hfailed : (contactCounter.step ((Gesture.empty 160.0).follow inTurns).2
      .evaluate).1.verdict?.map (fun v => v.failed.isEmpty) = some true := by decide +kernel
  rw [hv] at hfailed
  have hreply := Reply.eq_verdict_of_verdict? hv
  obtain ⟨low, high, hlow, hhigh, _, hbelow, habove⟩ :=
    contactCounter.failures_enclose_verdict sound_contactCounter
      (List.forall_mem_singleton.mpr (Classifier.scoresByTable_variant _)) 160.0 inTurns
      missesFirst hreply (List.isEmpty_iff.mp (Option.some.inj hfailed))
  exact ⟨v, low, high, hreply, hlow, hhigh, hbelow, habove⟩

end Engine

end StrayTouch
