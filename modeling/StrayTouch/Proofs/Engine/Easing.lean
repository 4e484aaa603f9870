import StrayTouch.Proofs.Engine.Isolation
import StrayTouch.Proofs.Evaluator.Order

/-!
Configurations that are made easier to reject under: with tables that are easier to cross and add no
less, a lower threshold, ties that reject and failures that count fully. No score falls, and no
gesture that was rejected is accepted.
-/
namespace StrayTouch

variable {α : Type} [Scalar α]

/-- One configuration is eased to another. They have tables for the same features. -/
structure Config.Eased (c d : Config α) : Prop where
  dpi : d.dpi = c.dpi
  tables : ∀ name, Option.Rel Evaluator.Eased (Keyed.get? c.tables name) (Keyed.get? d.tables name)
  threshold : Scalar.le d.rejectThreshold c.rejectThreshold = true
  tie : d.tiePolicy = c.tiePolicy ∨ d.tiePolicy = .reject
  failure : d.failurePolicy = c.failurePolicy ∨ d.failurePolicy = .ceiling

namespace Config.Eased

variable {c d : Config α}

theorem evaluatorFor (h : c.Eased d) (feature : Value) :
    Concur Evaluator.Eased (c.evaluatorFor feature) (d.evaluatorFor feature) := by
  unfold Config.evaluatorFor
  cases feature.toName with
  | error f => exact .error f
  | ok name =>
    have hrel := h.tables name
    simp only [ok_bind]
    generalize Keyed.get? c.tables name = ev?, Keyed.get? d.tables name = other? at hrel ⊢
    cases hrel with
    | some hev => exact .ok hev
    | none => exact .error _

/-- What is rejected is rejected under the eased configuration, also with a greater aggregate. -/
theorem rejects_of_le [Scalar.Monotone α] [Scalar.Ordered α] (h : c.Eased d) {x y : α}
    (hxy : Scalar.le x y = true) (hx : c.rejects x = true) : d.rejects y = true := by
  rw [rejects_eq_true_iff] at hx ⊢
  rcases hx with ⟨hc, hle⟩ | ⟨hc, hlt⟩
  · have hd : d.tiePolicy = .reject := h.tie.elim (fun ht => ht.trans hc) id
    exact .inl ⟨hd, Scalar.Monotone.le_trans h.threshold (Scalar.Monotone.le_trans hle hxy)⟩
  · have hover : Scalar.lt d.rejectThreshold y = true :=
      Scalar.Ordered.lt_of_le_of_lt h.threshold (Scalar.Monotone.lt_of_lt_of_le hlt hxy)
    rcases h.tie with ht | hd
    · exact .inr ⟨ht.trans hc, hover⟩
    · exact .inl ⟨hd, Scalar.Ordered.le_of_lt hover⟩

end Config.Eased

namespace Member

/-- The same classifier in the panel of an eased configuration. -/
structure Eased (m k : Member α) : Prop where
  classifier : k.classifier = m.classifier
  tag : m.tag = k.tag
  evaluator : m.evaluator.Eased k.evaluator

omit [Scalar α] in
private theorem forall₂_seats {R : Member α → Member α → Prop} {classifiers : List (Classifier α)}
    {tags : List Name} {tables others : List (Evaluator α)} {S : Evaluator α → Evaluator α → Prop}
    (h : List.Forall₂ S tables others) (hR : ∀ k t ev other, S ev other → R ⟨k, t, ev⟩ ⟨k, t, other⟩) :
    List.Forall₂ R
      (List.zipWith (fun k (t, ev) => Member.mk k t ev) classifiers (tags.zip tables))
      (List.zipWith (fun k (t, ev) => Member.mk k t ev) classifiers (tags.zip others)) := by
  induction h generalizing classifiers tags with
  | nil => simp
  | cons hS _ ih =>
    cases tags with
    | nil => simp
    | cons t tags =>
      cases classifiers with
      | nil => simp
      | cons k classifiers => exact .cons (hR k t _ _ hS) ih

theorem panel_concur {c d : Config α} (h : c.Eased d) (classifiers : List (Classifier α)) :
    Concur (List.Forall₂ Eased) (panel c classifiers) (panel d classifiers) := by
  unfold panel
  apply (Concur.mapM fun k _ => h.evaluatorFor k.feature).bind
  intro tables others htables
  cases classifiers.mapM fun k => k.tag.toName with
  | error f => exact .error f
  | ok tags =>
    simp only [ok_bind]
    split
    next => exact .ok (forall₂_seats htables fun k t ev other hev => ⟨rfl, rfl, hev⟩)
    next => exact .error _

variable [Scalar.Monotone α] [Scalar.Ordered α] {m k : Member α} {seen : Seen α}

/-- A classifier that scores by its table answers no less through an eased one, and fails on the
same strokes. -/
theorem Eased.outcome_concur (h : m.Eased k) (hs : m.evaluator.Sound)
    (hm : m.classifier.ScoresByTable) (seen : Seen α) :
    Concur (fun x y => Scalar.le Scalar.zero x = true ∧ Scalar.le x y = true)
      (m.outcome seen) (k.outcome seen) := by
  obtain ⟨isShort, feature, ha⟩ := hm
  unfold outcome
  rw [h.classifier, ha, ha]
  refine (Concur.bind (R := fun r s => ∃ x y, r = .number x ∧ s = .number y ∧
    Scalar.le Scalar.zero x = true ∧ Scalar.le x y = true) (Concur.refl.bind ?_) ?_)
  · rintro short _ rfl
    exact scoreFeature_concur h.evaluator hs short feature seen
  · rintro _ _ ⟨x, y, rfl, rfl, hxy⟩
    exact .ok hxy

theorem Eased.counted_le (h : m.Eased k) (hs : m.evaluator.Sound)
    (hm : m.classifier.ScoresByTable) {policy other : FailurePolicy}
    (hp : other = policy ∨ other = .ceiling) (seen : Seen α) :
    Scalar.le Scalar.zero (m.counted policy seen) = true ∧
      Scalar.le (m.counted policy seen) (k.counted other seen) = true := by
  have ho := h.outcome_concur hs hm seen
  have hceiling := hs.ceiling_nonneg
  have hle := h.evaluator.ceiling_le hs
  unfold counted
  generalize m.outcome seen = x?, k.outcome seen = y? at ho
  cases ho with
  | ok hxy => exact hxy
  | error f =>
    cases policy with
    | ceiling =>
      obtain rfl : other = .ceiling := hp.elim id id
      exact ⟨hceiling, hle⟩
    | floor =>
      cases other with
      | floor => exact ⟨Scalar.Monotone.zero_le_zero, Scalar.Monotone.zero_le_zero⟩
      | ceiling => exact ⟨Scalar.Monotone.zero_le_zero, Scalar.Monotone.le_trans hceiling hle⟩

end Member

namespace Verdict

/-- Verdicts on the same contacts by the same tags, of which none gives less than the other. -/
structure NoMoreThan (v w : Verdict α) : Prop where
  strokeScores : List.Forall₂ (fun r s => r.1 = s.1 ∧
    List.Forall₂ (fun x y => x.1 = y.1 ∧ Scalar.le x.2 y.2 = true) r.2 s.2)
      v.strokeScores w.strokeScores
  scores : List.Forall₂ (fun x y => x.1 = y.1 ∧ Scalar.le x.2 y.2 = true) v.scores w.scores
  aggregate : Scalar.le v.aggregate w.aggregate = true
  decision : v.decision = .reject → w.decision = .reject

theorem AccountsFor.noMoreThan [Scalar.Monotone α] [Scalar.Ordered α] {v w : Verdict α}
    {c d : Config α} {panel other : List (Member α)} {seen : List (Name × Seen α)}
    (hv : v.AccountsFor c panel seen) (hw : w.AccountsFor d other seen) (h : c.Eased d)
    (hpanel : List.Forall₂ Member.Eased panel other) (hs : ∀ m ∈ panel, m.evaluator.Sound)
    (hk : ∀ m ∈ panel, m.classifier.ScoresByTable) : v.NoMoreThan w := by
  have hcounted : List.Forall₂ (fun m k => m.tag = k.tag ∧ ∀ s : Seen α,
      Scalar.le Scalar.zero (m.counted c.failurePolicy s) = true ∧
        Scalar.le (m.counted c.failurePolicy s) (k.counted d.failurePolicy s) = true)
      panel other := by
    refine ((List.forall₂_and_left _ _).mpr ⟨fun m hm => And.intro (hs m hm) (hk m hm),
      hpanel⟩).imp ?_
    rintro m k ⟨⟨hsound, htable⟩, hmk⟩
    exact ⟨hmk.tag, hmk.counted_le hsound htable h.failure⟩
  obtain ⟨hscores, haggregate⟩ := hv.totals_le hw (hcounted.imp fun m k hmk =>
    ⟨hmk.1, Member.total_le_total (List.forall₂_same.mpr fun s _ => hmk.2 s.2)⟩)
  refine ⟨?_, hscores, haggregate, ?_⟩
  · rw [hv.strokeScores, hw.strokeScores, List.forall₂_map_left_iff, List.forall₂_map_right_iff,
      List.forall₂_same]
    intro s _
    refine ⟨rfl, ?_⟩
    rw [List.forall₂_map_left_iff, List.forall₂_map_right_iff]
    exact hcounted.imp fun m k hmk => ⟨hmk.1, (hmk.2 s.2).2⟩
  · rw [hv.decision_iff, hw.decision_iff]
    exact h.rejects_of_le haggregate

end Verdict

namespace Engine

theorem sound_of_seats {c : Config α} (hc : c.Sound) {ks : List (Classifier α)}
    {panel : List (Member α)} (h : List.Forall₂ (Member.Seats c) ks panel) :
    ∀ m ∈ panel, m.evaluator.Sound := by
  intro m hm
  obtain ⟨k, _, hseat⟩ := exists_of_forall₂ h hm
  exact hc.evaluatorFor hseat.evaluator

theorem evaluate_eased [Scalar.Monotone α] [Scalar.Ordered α] {c d : Config α} (hc : c.Sound)
    (h : c.Eased d) {ks : List (Classifier α)} (hk : ∀ k ∈ ks, k.ScoresByTable) {g : Gesture α}
    {dpi : α} {log : List (Gesture.Entry α)} (hr : g.Represents dpi log) :
    (∃ v w, ((⟨c, ks⟩ : Engine α).step g .evaluate).1 = .verdict v ∧
      ((⟨d, ks⟩ : Engine α).step g .evaluate).1 = .verdict w ∧ v.NoMoreThan w) ∨
      ∃ f, ((⟨c, ks⟩ : Engine α).step g .evaluate).1 = .refused f ∧
        ((⟨d, ks⟩ : Engine α).step g .evaluate).1 = .refused f := by
  have hpanels := Member.panel_concur h ks
  cases hp : Member.panel c ks with
  | error f =>
    rw [hp] at hpanels
    generalize hq : Member.panel d ks = q at hpanels
    cases hpanels
    exact .inr ⟨f, step_evaluate_of_error (e := ⟨c, ks⟩) hp g,
      step_evaluate_of_error (e := ⟨d, ks⟩) hq g⟩
  | ok panel =>
    rw [hp] at hpanels
    generalize hq : Member.panel d ks = q at hpanels
    cases hpanels with
    | @ok _ other hrel =>
    by_cases hs : g.strokeCount = 0
    · exact .inr ⟨.emptyGesture, step_evaluate_of_empty (e := ⟨c, ks⟩) hp hr.capturing hs,
        step_evaluate_of_empty (e := ⟨d, ks⟩) hq hr.capturing hs⟩
    · obtain ⟨hseats, hkeys⟩ := Member.panel_eq_ok_iff.mp hp
      have hv := accountsFor_of_represents ⟨c, ks⟩ hr hkeys
      have hw := accountsFor_of_represents ⟨d, ks⟩ hr (Member.panel_eq_ok_iff.mp hq).2
      have htables : ∀ m ∈ panel, m.classifier.ScoresByTable := by
        intro m hm
        obtain ⟨k, hmem, hseat⟩ := exists_of_forall₂ hseats hm
        exact hseat.classifier ▸ hk k hmem
      exact .inl ⟨_, _, congrArg Prod.fst (step_evaluate_of_panel hp hr.capturing hs),
        congrArg Prod.fst (step_evaluate_of_panel hq hr.capturing hs),
        hv.noMoreThan hw h hrel (sound_of_seats hc hseats) htables⟩

/-- Whatever is touched, and whatever classifiers score it by their tables and fail on it: under an
eased configuration the evaluation comes out where it came out, no score, no total and no aggregate
is lower, and what was rejected is rejected. -/
theorem eased_rejects_no_less [Scalar.Monotone α] [Scalar.Ordered α] {c d : Config α}
    (hc : c.Sound) (h : c.Eased d) (ks : List (Classifier α)) (hk : ∀ k ∈ ks, k.ScoresByTable)
    (ts : List Touch) :
    let before : Engine α := ⟨c, ks⟩
    let after : Engine α := ⟨d, ks⟩
    let reply := (before.step (before.beginGesture.follow ts).2 .evaluate).1
    let other := (after.step (after.beginGesture.follow ts).2 .evaluate).1
    (∃ v w, reply = .verdict v ∧ other = .verdict w ∧ v.NoMoreThan w) ∨
      ∃ f, reply = .refused f ∧ other = .refused f := by
  intro before after reply other
  obtain ⟨log, _, hr⟩ := (Gesture.represents_empty c.dpi).follow ts
  have hbegin : after.beginGesture = before.beginGesture := congrArg Gesture.empty h.dpi
  have hother : other = (after.step (before.beginGesture.follow ts).2 .evaluate).1 :=
    congrArg (fun g => (after.step (Gesture.follow g ts).2 .evaluate).1) hbegin
  rw [hother]
  exact evaluate_eased hc h hk hr

/-- The configuration of the contact counter, made easier to reject under. -/
def easedCounter : Config Float :=
  ⟨160.0, 1.5, .reject, .ceiling,
    [(.text "pointer_count", ⟨[(0.25, 2.0), (1.5, 3.0)], .above⟩)]⟩

theorem eased_easedCounter : contactCounter.config.Eased easedCounter where
  dpi := rfl
  tables := by
    intro name
    simp only [contactCounter, easedCounter, Keyed.get?]
    split
    · have hfirst : Scalar.le (0.25 : Float) 0.5 = true ∧ Scalar.le (2.0 : Float) 2.0 = true := by
        decide +kernel
      have hsecond : Scalar.le (1.5 : Float) 1.5 = true ∧ Scalar.le (2.0 : Float) 3.0 = true := by
        decide +kernel
      exact .some ⟨rfl, .cons hfirst (.cons hsecond .nil)⟩
    · exact .none
  threshold := by decide +kernel
  tie := .inl rfl
  failure := .inr rfl

theorem eased_rejects_inTurns :
    ∃ v w, (contactCounter.step (contactCounter.beginGesture.follow inTurns).2
        .evaluate).1 = .verdict v ∧
      (({ contactCounter with config := easedCounter } : Engine Float).step
        ((Gesture.empty 160.0).follow inTurns).2 .evaluate).1 = .verdict w ∧
      v.NoMoreThan w := by
  rcases eased_rejects_no_less sound_contactCounter eased_easedCounter contactCounter.classifiers
    (List.forall_mem_singleton.mpr (Classifier.scoresByTable_variant _)) inTurns with
    h | ⟨f, hf, _⟩
  · exact h
  · have hv : (contactCounter.step (contactCounter.beginGesture.follow inTurns).2
        .evaluate).1.isVerdict = true := by decide +kernel
    rw [hf] at hv
    cases hv

end Engine

end StrayTouch
