import StrayTouch.Proofs.Config
import StrayTouch.Proofs.Engine.Breakdown
import StrayTouch.Proofs.Number.Addition

/-!
Scores and the range of their tables. A score lies in the range of its table unless its classifier
answers with a number outside of it, and as long as no number is below zero, classifiers only add
to the evidence of the others.
-/
namespace StrayTouch

variable {α : Type} [Scalar α]

/-- A classifier that answers with the score of a feature, as all do that only say how long a
stroke must be and what its feature is. -/
def Classifier.ScoresByTable (k : Classifier α) : Prop :=
  ∃ (isShort : Seen α → Except Fault Bool) (feature : Seen α → Except Fault (Option (Reading α))),
    ∀ ev seen, k.answer ev seen = do scoreFeature (← isShort seen) feature ev seen

theorem Classifier.scoresByTable_variant (v : Variant) :
    (v.classifier : Classifier α).ScoresByTable :=
  ⟨fun seen => .ok (decide (seen.stroke.count < v.minPoints)),
    fun seen => do .ok ((← v.read seen).map .number), fun _ _ => rfl⟩

def Evaluator.InRange (ev : Evaluator α) (x : α) : Prop :=
  Scalar.le Scalar.zero x = true ∧ Scalar.le x ev.ceiling = true

namespace Member

variable {m : Member α} {seen : Seen α}

/-- No number that a classifier answers for a stroke lies outside the range of its table. One that
fails answers none. -/
def AnswersInRange (m : Member α) (seen : Seen α) : Prop :=
  ∀ x, m.outcome seen = .ok x → m.evaluator.InRange x

def AnswersFromZero (m : Member α) (seen : Seen α) : Prop :=
  ∀ x, m.outcome seen = .ok x → Scalar.le Scalar.zero x = true

variable [Scalar.Monotone α]

theorem answersInRange_of_scoresByTable (hs : m.evaluator.Sound)
    (hk : m.classifier.ScoresByTable) (seen : Seen α) : m.AnswersInRange seen := by
  obtain ⟨isShort, feature, ha⟩ := hk
  intro x ho
  unfold outcome at ho
  rw [ha] at ho
  obtain ⟨r, hanswer, ho⟩ := bind_eq_ok_iff.mp ho
  obtain ⟨short, _, hscore⟩ := bind_eq_ok_iff.mp hanswer
  obtain ⟨y, rfl, hy⟩ := scoreFeature_bounds hs hscore
  exact Except.ok.inj ho ▸ hy

/-- What counts for a classifier lies in the range of its table exactly if its answers do, under
either policy. -/
theorem inRange_counted_iff (policy : FailurePolicy) (hs : m.evaluator.Sound) :
    m.evaluator.InRange (m.counted policy seen) ↔ m.AnswersInRange seen := by
  unfold AnswersInRange counted
  cases m.outcome seen with
  | ok x => simp
  | error f =>
    have hceiling := hs.ceiling_nonneg
    cases policy with
    | floor => simpa using ⟨Scalar.Monotone.zero_le_zero, hceiling⟩
    | ceiling => simpa using ⟨hceiling, Scalar.Monotone.le_refl hceiling⟩

theorem counted_nonneg (policy : FailurePolicy) (hs : m.evaluator.Sound)
    (h : m.AnswersFromZero seen) : Scalar.le Scalar.zero (m.counted policy seen) = true := by
  unfold AnswersFromZero at h
  unfold counted
  cases ho : m.outcome seen with
  | ok x => exact h x ho
  | error f =>
    cases policy with
    | floor => exact Scalar.Monotone.zero_le_zero
    | ceiling => exact hs.ceiling_nonneg

end Member

namespace Verdict

/-- The score of the classifier at place `i` of a panel for the stroke at a place of a gesture. -/
def entry? (v : Verdict α) (place i : Nat) : Option (Name × α) :=
  (v.strokeScores[place]?).bind fun row => row.2[i]?

variable {v w : Verdict α} {c d : Config α} {panel other : List (Member α)}
  {seen : List (Name × Seen α)}

theorem AccountsFor.entry? (h : v.AccountsFor c panel seen) (place i : Nat) :
    v.entry? place i = (seen[place]?).bind fun s =>
      (panel[i]?).map fun m => (m.tag, m.counted c.failurePolicy s.2) := by
  rw [Verdict.entry?, h.strokeScores, List.getElem?_map]
  cases seen[place]? <;> simp

/-- Under one threshold and one policy for ties, a gesture whose aggregate is no lower is not
accepted instead of rejected. -/
theorem AccountsFor.reject_of_le [Scalar.Monotone α] {others : List (Name × Seen α)}
    (hv : v.AccountsFor c panel seen) (hw : w.AccountsFor d other others)
    (ht : c.tiePolicy = d.tiePolicy) (hr : c.rejectThreshold = d.rejectThreshold)
    (h : Scalar.le v.aggregate w.aggregate = true) :
    v.decision = .reject → w.decision = .reject := by
  rw [hv.decision, hw.decision, hv.threshold, hw.threshold, ht, hr]
  rintro (⟨hp, hle⟩ | ⟨hp, hlt⟩)
  · exact .inl ⟨hp, Scalar.Monotone.le_trans hle h⟩
  · exact .inr ⟨hp, Scalar.Monotone.lt_of_lt_of_le hlt h⟩

end Verdict

omit [Scalar α] in
/-- A part of some classifiers is seated wherever all of them are, each as it is among them. -/
theorem Member.exists_panel_of_sublist {c : Config α} {ks classifiers : List (Classifier α)}
    {panel : List (Member α)} (hs : ks.Sublist classifiers)
    (hp : Member.panel c classifiers = .ok panel) :
    ∃ part, Member.panel c ks = .ok part ∧ part.Sublist panel := by
  obtain ⟨hseats, hd⟩ := panel_eq_ok_iff.mp hp
  clear hp
  suffices hpart : ∃ part, List.Forall₂ (Seats c) ks part ∧ part.Sublist panel by
    obtain ⟨part, hpart, hsub⟩ := hpart
    exact ⟨part, panel_eq_ok_iff.mpr ⟨hpart, (hsub.map _).nodup hd⟩, hsub⟩
  clear hd
  induction hs generalizing panel with
  | slnil => exact ⟨[], .nil, List.nil_sublist _⟩
  | cons k _ ih =>
    cases hseats with
    | cons _ hseats =>
      obtain ⟨part, hpart, hsub⟩ := ih hseats
      exact ⟨part, hpart, hsub.cons _⟩
  | cons_cons k _ ih =>
    cases hseats with
    | cons hk hseats =>
      obtain ⟨part, hpart, hsub⟩ := ih hseats
      exact ⟨_ :: part, .cons hk hpart, hsub.cons_cons _⟩

namespace Verdict.AccountsFor

variable [Scalar.Monotone α] {v w : Verdict α} {c : Config α} {panel part : List (Member α)}
  {seen : List (Name × Seen α)}

theorem scores_nonneg (h : v.AccountsFor c panel seen)
    (hn : ∀ m ∈ panel, ∀ s ∈ seen,
      Scalar.le Scalar.zero (m.counted c.failurePolicy s.2) = true) :
    ∀ x ∈ v.scores.map Prod.snd, Scalar.le Scalar.zero x = true := by
  rw [h.scores, List.map_map]
  refine List.forall_mem_map.mpr fun m hm => Scalar.sum_nonneg ?_
  exact List.forall_mem_map.mpr (hn m hm)

/-- A part of the panel that rejects a gesture is not outvoted by the rest, as long as nothing below
zero counts. -/
theorem reject_of_sublist (hv : v.AccountsFor c panel seen) (hw : w.AccountsFor c part seen)
    (hs : part.Sublist panel)
    (hn : ∀ m ∈ panel, ∀ s ∈ seen,
      Scalar.le Scalar.zero (m.counted c.failurePolicy s.2) = true) :
    w.decision = .reject → v.decision = .reject := by
  refine hw.reject_of_le hv rfl rfl ?_
  have hscores : (w.scores.map Prod.snd).Sublist (v.scores.map Prod.snd) := by
    rw [hw.scores, hv.scores]
    exact (hs.map _).map _
  rw [hw.aggregate, hv.aggregate]
  exact Scalar.sum_le_sum_of_sublist hscores (hv.scores_nonneg hn)

end Verdict.AccountsFor

namespace Engine

/-- Each score of a verdict lies in the range of its table exactly if its classifier failed there or
answered in that range, whatever the others do, and that of a classifier which scores by its table
always does. As long as no classifier answers below zero, the aggregate is a number from zero on,
and a gesture that some of the classifiers reject is rejected by all of them together. -/
theorem scores_within_range [Scalar.Monotone α] (e : Engine α) (hc : e.config.Sound) (dpi : α)
    (ts : List Touch) {v : Verdict α}
    (hv : (e.step ((Gesture.empty dpi).follow ts).2 .evaluate).1 = .verdict v) :
    let g := ((Gesture.empty dpi).follow ts).2
    let seen := (g.freezeAll.withPhase .evaluating).seen
    ∃ panel, Member.panel e.config e.classifiers = .ok panel ∧
      (∀ place s i m, seen[place]? = some s → panel[i]? = some m →
        ∃ x, v.entry? place i = some (m.tag, x) ∧
          (m.evaluator.InRange x ↔ m.AnswersInRange s.2) ∧
          (m.classifier.ScoresByTable → m.evaluator.InRange x)) ∧
      ((∀ m ∈ panel, ∀ s ∈ seen, m.AnswersFromZero s.2) →
        Scalar.le Scalar.zero v.aggregate = true ∧
          ∀ ks, ks.Sublist e.classifiers →
            ∃ w, (({ e with classifiers := ks } : Engine α).step g .evaluate).1 = .verdict w ∧
              (w.decision = .reject → v.decision = .reject)) := by
  intro g seen
  obtain ⟨entries, _, hr⟩ := (Gesture.represents_empty dpi).follow ts
  obtain ⟨panel, hp, _, hs, hverdict⟩ := exists_panel_of_verdict hv
  obtain ⟨hseats, hd⟩ := Member.panel_eq_ok_iff.mp hp
  have haccount := e.accountsFor_of_represents hr hd
  rw [← hverdict] at haccount
  have hsound : ∀ m ∈ panel, m.evaluator.Sound := by
    intro m hm
    obtain ⟨k, _, hseat⟩ := exists_of_forall₂ hseats hm
    exact hc.evaluatorFor hseat.evaluator
  refine ⟨panel, hp, ?_, fun hzero => ?_⟩
  · intro place s i m hplace hi
    have hm := hsound m (List.mem_of_getElem? hi)
    refine ⟨m.counted e.config.failurePolicy s.2, ?_, Member.inRange_counted_iff _ hm, ?_⟩
    · rw [haccount.entry?, hplace, hi]
      rfl
    · intro hk
      exact (Member.inRange_counted_iff _ hm).mpr (Member.answersInRange_of_scoresByTable hm hk _)
  · have hn : ∀ m ∈ panel, ∀ s ∈ seen,
        Scalar.le Scalar.zero (m.counted e.config.failurePolicy s.2) = true :=
      fun m hm s hseen => Member.counted_nonneg _ (hsound m hm) (hzero m hm s hseen)
    refine ⟨?_, fun ks hks => ?_⟩
    · rw [haccount.aggregate]
      exact Scalar.sum_nonneg (haccount.scores_nonneg hn)
    · obtain ⟨part, hpart, hsub⟩ := Member.exists_panel_of_sublist hks hp
      let fewer : Engine α := { e with classifiers := ks }
      have hw := fewer.accountsFor_of_represents hr (Member.panel_eq_ok_iff.mp hpart).2
      exact ⟨_, congrArg Prod.fst (step_evaluate_of_panel (e := fewer) hpart hr.capturing hs),
        haccount.reject_of_sublist hw hsub hn⟩

/-- A classifier that answers with one number for every stroke and never looks at its table. -/
def unasked (answer : Float) : Classifier Float :=
  { unspecified with
    feature := .text "pressure", score? := some (.atom (.float answer)) }.classifier

def contactsAndPressure : Config Float :=
  ⟨160.0, 2.0, .reject, .floor,
    [(.text "pointer_count", ⟨[(0.5, 2.0), (1.5, 2.0)], .above⟩),
      (.text "pressure", ⟨[], .above⟩)]⟩

theorem sound_contactsAndPressure : contactsAndPressure.Sound where
  dpi_finite := by decide +kernel
  dpi_positive := by decide +kernel
  threshold_finite := by decide +kernel
  tables := by decide +kernel

/-- A contact counter beside a classifier that does not look at its table. -/
def contactCounterBeside (answer : Float) : Engine Float where
  config := contactsAndPressure
  classifiers := [Variant.pointerCount.classifier, unasked answer]

theorem answersFromZero_contactCounterBeside {answer : Float} {panel : List (Member Float)}
    (hp : Member.panel (contactCounterBeside answer).config
      (contactCounterBeside answer).classifiers = .ok panel)
    (h : Scalar.le Scalar.zero answer = true) :
    ∀ m ∈ panel, ∀ seen, m.AnswersFromZero seen := by
  intro m hm seen
  obtain ⟨hseats, _⟩ := Member.panel_eq_ok_iff.mp hp
  obtain ⟨k, hk, hseat⟩ := exists_of_forall₂ hseats hm
  have hsound := sound_contactsAndPressure.evaluatorFor hseat.evaluator
  rcases List.mem_pair.mp hk with rfl | rfl
  · have htable : m.classifier.ScoresByTable :=
      hseat.classifier ▸ Classifier.scoresByTable_variant .pointerCount
    exact fun x hx => (Member.answersInRange_of_scoresByTable hsound htable seen x hx).1
  · intro x hx
    have ho : m.outcome seen = .ok answer := by
      rw [Member.outcome, hseat.classifier]
      rfl
    rw [ho] at hx
    exact Except.ok.inj hx ▸ h

/-- Two contacts that the counter rejects are rejected as well with a classifier beside it that
answers 1. -/
theorem rejects_contactCounterBeside_one :
    ∃ v w, ((contactCounterBeside 1.0).step ((Gesture.empty 160.0).follow inTurns).2
        .evaluate).1 = .verdict v ∧
      (({ contactCounterBeside 1.0 with classifiers := [Variant.pointerCount.classifier] } :
        Engine Float).step ((Gesture.empty 160.0).follow inTurns).2 .evaluate).1 = .verdict w ∧
      Scalar.le Scalar.zero v.aggregate = true ∧ (w.decision = .reject → v.decision = .reject) := by
  obtain ⟨v, hv⟩ := Option.isSome_iff_exists.mp (show ((contactCounterBeside 1.0).step
    ((Gesture.empty 160.0).follow inTurns).2 .evaluate).1.verdict?.isSome = true by decide +kernel)
  have hreply := Reply.eq_verdict_of_verdict? hv
  obtain ⟨panel, hp, _, hpositive⟩ := (contactCounterBeside 1.0).scores_within_range
    sound_contactsAndPressure 160.0 inTurns hreply
  obtain ⟨haggregate, hparts⟩ := hpositive fun m hm s _ =>
    answersFromZero_contactCounterBeside hp (by decide +kernel) m hm s.2
  obtain ⟨w, hw, hreject⟩ :=
    hparts [Variant.pointerCount.classifier] (by simp [contactCounterBeside])
  exact ⟨v, w, hreply, hw, haggregate, hreject⟩

/-- Beside a classifier that answers with no number, the counter is outvoted: the score lies outside
the range of its table, the aggregate is no number, and what the counter rejects is accepted. -/
theorem outvoted_contactCounterBeside_nan :
    (contactCounterBeside Binary64.notANumber).config.Sound ∧
    ∃ v w x, ((contactCounterBeside Binary64.notANumber).step
        ((Gesture.empty 160.0).follow inTurns).2 .evaluate).1 = .verdict v ∧
      (({ contactCounterBeside Binary64.notANumber with
        classifiers := [Variant.pointerCount.classifier] } : Engine Float).step
          ((Gesture.empty 160.0).follow inTurns).2 .evaluate).1 = .verdict w ∧
      v.entry? 0 1 = some x ∧ Scalar.le Scalar.zero x.2 = false ∧
      Scalar.le Scalar.zero v.aggregate = false ∧
      w.decision = .reject ∧ v.decision = .accept := by
  have hall : ((contactCounterBeside Binary64.notANumber).step
      ((Gesture.empty 160.0).follow inTurns).2 .evaluate).1.verdict?.map
        (fun v => (v.decision, Scalar.le Scalar.zero v.aggregate,
          (v.entry? 0 1).map fun x => Scalar.le Scalar.zero x.2)) =
      some (.accept, false, some false) := by decide +kernel
  have hcounter : (({ contactCounterBeside Binary64.notANumber with
      classifiers := [Variant.pointerCount.classifier] } : Engine Float).step
        ((Gesture.empty 160.0).follow inTurns).2 .evaluate).1.verdict?.map Verdict.decision =
      some .reject := by decide +kernel
  obtain ⟨v, hv, hparts⟩ := Option.map_eq_some_iff.mp hall
  obtain ⟨w, hw, hreject⟩ := Option.map_eq_some_iff.mp hcounter
  simp only [Prod.mk.injEq] at hparts
  obtain ⟨haccept, haggregate, hentry⟩ := hparts
  obtain ⟨x, hx, hscore⟩ := Option.map_eq_some_iff.mp hentry
  exact ⟨sound_contactsAndPressure, v, w, x, Reply.eq_verdict_of_verdict? hv,
    Reply.eq_verdict_of_verdict? hw, hx, hscore, haggregate, hreject, haccept⟩

end Engine

end StrayTouch
