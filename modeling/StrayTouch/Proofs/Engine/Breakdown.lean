import StrayTouch.Classifier.Scripted
import StrayTouch.Proofs.Engine.Interleaving

/-!
What stands in a verdict. Every score is that of one classifier on one stroke, the totals are the
sums of these scores, and the failures are named in the order in which they came.
-/
namespace StrayTouch

variable {α : Type} [Scalar α]

namespace Member

/-- The number that a classifier answers for a stroke. It fails if it answers none. -/
def outcome (m : Member α) (seen : Seen α) : Except Fault α :=
  m.classifier.answer m.evaluator seen >>= Reading.toReal

def fails (m : Member α) (seen : Seen α) : Bool :=
  match m.outcome seen with
  | .ok _ => false
  | .error _ => true

/-- The score that counts for a classifier on a stroke: its number, or where it fails the floor or
the ceiling of its table. -/
def counted (policy : FailurePolicy) (m : Member α) (seen : Seen α) : α :=
  match m.outcome seen, policy with
  | .ok x, _ => x
  | .error _, .floor => m.evaluator.floor
  | .error _, .ceiling => m.evaluator.ceiling

theorem judge_score (policy : FailurePolicy) (seen : Seen α) (m : Member α) :
    (m.judge policy seen).score = m.counted policy seen := by
  unfold judge counted outcome
  cases m.classifier.answer m.evaluator seen >>= Reading.toReal with
  | ok x => rfl
  | error f => cases policy <;> rfl

theorem judge_isFailure (policy : FailurePolicy) (seen : Seen α) (m : Member α) :
    (m.judge policy seen).isFailure = m.fails seen := by
  unfold judge fails outcome Judgement.isFailure
  cases m.classifier.answer m.evaluator seen >>= Reading.toReal <;> rfl

/-- The tags of the members that fail on strokes: stroke by stroke, in the order of the panel, and
each tag where it first comes. -/
def failedTags (panel : List (Member α)) (strokes : List (Seen α)) : List Name :=
  (strokes.flatMap fun s => (panel.filter fun m => m.fails s).map tag).eraseDupsBy Name.sameKey

end Member

/-- A verdict that gives account of every member of a panel on every stroke. -/
structure Verdict.AccountsFor (v : Verdict α) (c : Config α) (panel : List (Member α))
    (seen : List (Name × Seen α)) : Prop where
  strokeScores : v.strokeScores =
    seen.map fun s => (s.1, panel.map fun m => (m.tag, m.counted c.failurePolicy s.2))
  scores : v.scores =
    panel.map fun m => (m.tag, Scalar.sum (seen.map fun s => m.counted c.failurePolicy s.2))
  aggregate : v.aggregate = Scalar.sum (v.scores.map Prod.snd)
  threshold : v.threshold = c.rejectThreshold
  failed : v.failed = Member.failedTags panel (seen.map Prod.snd)
  decision : v.decision = .reject ↔
    c.tiePolicy = .reject ∧ Scalar.le v.threshold v.aggregate = true ∨
      c.tiePolicy = .accept ∧ Scalar.lt v.threshold v.aggregate = true

theorem Config.rejects_eq_true_iff {c : Config α} {x : α} :
    c.rejects x = true ↔
      c.tiePolicy = .reject ∧ Scalar.le c.rejectThreshold x = true ∨
        c.tiePolicy = .accept ∧ Scalar.lt c.rejectThreshold x = true := by
  unfold rejects
  split
  next h => simp [h]
  next h => simp [h]

theorem Verdict.decision_ofTally (c : Config α) (t : Tally α) :
    (ofTally c t).decision = .reject ↔ c.rejects (ofTally c t).aggregate = true := by
  simp [ofTally]

namespace Member

variable {panel : List (Member α)}

omit [Scalar α] in
private theorem filter_sameKey {m : Member α} (hd : (panel.map fun m => m.tag.key).Nodup)
    (hm : m ∈ panel) : (panel.filter fun x => m.tag.sameKey x.tag) = [m] := by
  induction panel with
  | nil => cases hm
  | cons first rest ih =>
    obtain ⟨hn, hd⟩ := List.nodup_cons.mp hd
    rcases List.mem_cons.mp hm with rfl | hm
    · have ho : (rest.filter fun x => m.tag.sameKey x.tag) = [] := by
        refine List.filter_eq_nil_iff.mpr fun other hother hs => ?_
        exact hn (List.mem_map.mpr ⟨other, hother, (Name.sameKey_iff.mp hs).symm⟩)
      simp [Name.sameKey_refl, ho]
    · have ho : m.tag.sameKey first.tag = false := by
        refine Name.sameKey_eq_false_iff.mpr fun hs => ?_
        exact hn (List.mem_map.mpr ⟨m, hm, hs⟩)
      simp [ho, ih hd hm]

theorem totals_judged (policy : FailurePolicy) (hd : (panel.map fun m => m.tag.key).Nodup)
    (seen : List (Seen α)) :
    Tally.totals (Tally.start (panel.map tag)).scores
        (seen.map fun s => panel.map (judge policy s)).flatten =
      panel.map fun m => (m.tag, Scalar.sum (seen.map (m.counted policy))) := by
  rw [Tally.totals_eq_map, Tally.start, List.map_map, List.map_map]
  refine List.map_congr_left fun m hm => ?_
  have hrow : ∀ s, (panel.map (judge policy s)).filter (fun j => m.tag.sameKey j.tag) =
      [m.judge policy s] := by
    intro s
    rw [List.filter_map]
    exact congrArg (List.map (judge policy s)) (filter_sameKey hd hm)
  have hscores : ((seen.flatMap fun s => panel.map (judge policy s)).filter
      fun j => m.tag.sameKey j.tag).map Judgement.score = seen.map (m.counted policy) := by
    simp only [List.filter_flatMap, hrow, List.map_flatMap, List.map_singleton, judge_score]
    exact List.flatMap_pure_eq_map _ seen
  rw [← List.flatMap_def]
  exact congrArg (fun scores => (m.tag, Scalar.sum scores)) hscores

theorem failures_judged (policy : FailurePolicy) (panel : List (Member α))
    (seen : List (Seen α)) :
    Tally.failures [] (seen.map fun s => panel.map (judge policy s)).flatten =
      failedTags panel seen := by
  rw [Tally.failures_eq_eraseDupsBy, failedTags, ← List.flatMap_def, List.filter_flatMap,
    List.map_flatMap]
  refine congrArg (List.eraseDupsBy Name.sameKey) (List.flatMap_congr fun s _ => ?_)
  rw [List.filter_map, List.map_map]
  have hf : (Judgement.isFailure ∘ judge policy s) = fun m => m.fails s :=
    funext (judge_isFailure policy s)
  rw [hf]
  rfl

theorem mem_failedTags_iff (hd : (panel.map fun m => m.tag.key).Nodup) {m : Member α}
    (hm : m ∈ panel) {strokes : List (Seen α)} :
    m.tag ∈ failedTags panel strokes ↔ ∃ s ∈ strokes, m.fails s = true := by
  have hinj : ∀ other ∈ panel, other.tag.key = m.tag.key → other = m :=
    fun other ho he => List.inj_on_of_nodup_map hd ho hm he
  rw [failedTags, Name.mem_eraseDupsBy_iff]
  · simp only [List.mem_flatMap, List.mem_map, List.mem_filter]
    constructor
    · rintro ⟨s, hs, other, ⟨ho, hf⟩, ht⟩
      rw [hinj other ho (congrArg Name.key ht)] at hf
      exact ⟨s, hs, hf⟩
    · rintro ⟨s, hs, hf⟩
      exact ⟨s, hs, m, ⟨hm, hf⟩, rfl⟩
  · intro tag htag hk
    simp only [List.mem_flatMap, List.mem_map, List.mem_filter] at htag
    obtain ⟨_, _, other, ⟨ho, _⟩, rfl⟩ := htag
    rw [hinj other ho hk]

theorem failedTags_eq_nil_iff {strokes : List (Seen α)} :
    failedTags panel strokes = [] ↔ ∀ m ∈ panel, ∀ s ∈ strokes, m.fails s = false := by
  simp only [failedTags, Name.eraseDupsBy_eq_nil_iff, List.flatMap_eq_nil_iff,
    List.map_eq_nil_iff, List.filter_eq_nil_iff, Bool.not_eq_true]
  exact ⟨fun h m hm s hs => h s hs m hm, fun h s hs m hm => h m hm s hs⟩

end Member

namespace Engine

theorem verdictOn_accountsFor (e : Engine α) {panel : List (Member α)} {ids : List Name}
    {strokes : List (Stroke α)} (hd : (panel.map fun m => m.tag.key).Nodup)
    (hl : ids.length = strokes.length) (hi : (ids.map Name.key).Nodup) :
    (e.verdictOn panel ids strokes).AccountsFor e.config panel
      (ids.zip (Stroke.seenIn strokes)) := by
  have hlength : ids.length = (Stroke.seenIn strokes).length := by
    rw [hl, Stroke.length_seenIn]
  rw [verdictOn, Verdict.ofJudgements_zip _ _ _ (by simpa using hlength) hi,
    Member.totals_judged _ hd, Member.failures_judged]
  have hsnd : (ids.zip (Stroke.seenIn strokes)).map Prod.snd = Stroke.seenIn strokes :=
    List.map_snd_zip (Nat.le_of_eq hlength.symm)
  have hscores (f : Seen α → α) : (Stroke.seenIn strokes).map f =
      (ids.zip (Stroke.seenIn strokes)).map fun s => f s.2 := by
    conv_lhs => rw [← hsnd, List.map_map]
    rfl
  refine ⟨?_, ?_, rfl, rfl, ?_, ?_⟩
  · have hrow (s : Seen α) :
        (panel.map (Member.judge e.config.failurePolicy s)).map Judgement.entry =
          panel.map fun m => (m.tag, m.counted e.config.failurePolicy s) := by
      rw [List.map_map]
      exact List.map_congr_left fun m _ => congrArg (Prod.mk m.tag) (m.judge_score _ s)
    simp only [Verdict.ofTally, List.map_map, Function.comp_def, hrow, List.zip_map_right]
    rfl
  · exact List.map_congr_left fun m _ => by rw [hscores]
  · rw [hsnd]
    rfl
  · exact (Verdict.decision_ofTally _ _).trans Config.rejects_eq_true_iff

theorem accountsFor_of_represents (e : Engine α) {g : Gesture α} {dpi : α}
    {log : List (Gesture.Entry α)} (hr : g.Represents dpi log) {panel : List (Member α)}
    (hd : (panel.map fun m => m.tag.key).Nodup) :
    (e.verdictOn panel g.contactIds g.freezeAll.strokes).AccountsFor e.config panel
      (g.freezeAll.withPhase .evaluating).seen := by
  have hlength : g.contactIds.length = g.freezeAll.strokes.length := by
    simp [Gesture.contactIds, Gesture.strokes, Gesture.freezeAll, Keyed.keys]
  have hnodup : (g.contactIds.map Name.key).Nodup := by
    rw [hr.contactIds_eq]
    exact Gesture.Log.nodup_contacts _
  have hseen : (g.freezeAll.withPhase .evaluating).seen =
      g.contactIds.zip (Stroke.seenIn g.freezeAll.strokes) := by
    rw [← g.contactIds_freezeAll]
    exact Gesture.seen_eq_zip _
  rw [hseen]
  exact e.verdictOn_accountsFor hd hlength hnodup

theorem step_evaluate_of_error {e : Engine α} {f : Fault}
    (hp : Member.panel e.config e.classifiers = .error f) (g : Gesture α) :
    (e.step g .evaluate).1 = .refused f := by
  rw [step_evaluate, evaluate, judge, hp]
  rfl

theorem step_evaluate_of_empty {e : Engine α} {g : Gesture α} {panel : List (Member α)}
    (hp : Member.panel e.config e.classifiers = .ok panel) (hc : g.phase = .capturing)
    (hs : g.strokeCount = 0) : (e.step g .evaluate).1 = .refused .emptyGesture := by
  rw [step_evaluate, evaluate, judge, hp]
  simp [Gesture.beginEvaluation, hc, hs]

/-- An open gesture with a stroke is decided as soon as the panel can be seated. -/
theorem step_evaluate_of_panel {e : Engine α} {g : Gesture α} {panel : List (Member α)}
    (hp : Member.panel e.config e.classifiers = .ok panel) (hc : g.phase = .capturing)
    (hs : g.strokeCount ≠ 0) :
    e.step g .evaluate =
      (.verdict (e.verdictOn panel g.contactIds g.freezeAll.strokes),
        g.freezeAll.withPhase .decided) := by
  have h := evaluate_eq_ok_iff.mpr ⟨panel, hp, hc, hs, rfl, rfl⟩
  rw [step_evaluate, h, judgements_eq, Gesture.contactIds_withPhase,
    Gesture.contactIds_freezeAll, Gesture.strokes_withPhase]
  rfl

/-- An open gesture with a stroke is decided as soon as every classifier has a table and no two have
the same tag. -/
theorem exists_verdict_of_tables {e : Engine α} {g : Gesture α} {tags : List Name}
    (hc : g.phase = .capturing) (hs : g.strokeCount ≠ 0)
    (ht : ∀ k ∈ e.classifiers, ∃ ev, e.config.evaluatorFor k.feature = .ok ev)
    (hg : e.classifiers.map Classifier.tag = tags.map Name.value)
    (hd : (tags.map Name.key).Nodup) : ∃ v, (e.step g .evaluate).1 = .verdict v := by
  obtain ⟨panel, hseats, htags⟩ := Member.exists_seats ht hg
  have hkeys : (panel.map fun m => m.tag.key).Nodup := by
    rw [Member.map_tag_key, htags]
    exact hd
  exact ⟨_, congrArg Prod.fst
    (step_evaluate_of_panel (Member.panel_eq_ok_iff.mpr ⟨hseats, hkeys⟩) hc hs)⟩

theorem exists_panel_of_verdict {e : Engine α} {g : Gesture α} {v : Verdict α}
    (h : (e.step g .evaluate).1 = .verdict v) :
    ∃ panel, Member.panel e.config e.classifiers = .ok panel ∧ g.phase = .capturing ∧
      g.strokeCount ≠ 0 ∧ v = e.verdictOn panel g.contactIds g.freezeAll.strokes := by
  have he := e.step_effect g .evaluate
  rw [h] at he
  generalize (e.step g .evaluate).2 = after at he
  cases he with
  | evaluate hc hv =>
    obtain ⟨panel, hp, _, hs, _, _⟩ := evaluate_eq_ok_iff.mp hv
    rw [step_evaluate_of_panel hp hc hs] at h
    exact ⟨panel, hp, hc, hs, (Reply.verdict.inj h).symm⟩

/-- Every verdict gives account of a panel that the classifiers fill. -/
theorem exists_account_of_verdict {e : Engine α} {g : Gesture α} {dpi : α}
    {log : List (Gesture.Entry α)} (hr : g.Represents dpi log) {v : Verdict α}
    (h : (e.step g .evaluate).1 = .verdict v) :
    ∃ panel, List.Forall₂ (Member.Seats e.config) e.classifiers panel ∧
      (panel.map fun m => m.tag.key).Nodup ∧
      v.AccountsFor e.config panel (g.freezeAll.withPhase .evaluating).seen := by
  obtain ⟨panel, hp, _, _, rfl⟩ := exists_panel_of_verdict h
  obtain ⟨hseats, hd⟩ := Member.panel_eq_ok_iff.mp hp
  exact ⟨panel, hseats, hd, e.accountsFor_of_represents hr hd⟩

/-- The verdict on a gesture breaks down into its contacts. -/
theorem keys_strokeScores {e : Engine α} {g : Gesture α} {dpi : α}
    {log : List (Gesture.Entry α)} (hr : g.Represents dpi log) {v : Verdict α}
    (h : (e.step g .evaluate).1 = .verdict v) :
    v.strokeScores.map Prod.fst = g.contactIds := by
  obtain ⟨panel, _, _, haccount⟩ := exists_account_of_verdict hr h
  rw [haccount.strokeScores, List.map_map]
  have hseen := (g.freezeAll.withPhase .evaluating).map_fst_seen
  rwa [Gesture.contactIds_withPhase, Gesture.contactIds_freezeAll] at hseen

/-- An engine with a classifier that fails on every stroke, which counts as its ceiling. -/
def failsClosed : Engine Float where
  config := ⟨160.0, 8.0, .reject, .ceiling,
    [(.text "pointer_count", ⟨[(0.5, 2.0), (1.5, 2.0)], .above⟩),
      (.text "pressure", ⟨[(0.5, 3.0)], .above⟩)]⟩
  classifiers := [Variant.pointerCount.classifier,
    { unspecified with feature := .text "pressure", minPoints := .int 1 }.classifier]

theorem exists_table_failsClosed :
    ∀ k ∈ failsClosed.classifiers, ∃ ev, failsClosed.config.evaluatorFor k.feature = .ok ev := by
  simp only [failsClosed, List.forall_mem_cons, List.not_mem_nil, false_imp_iff, implies_true,
    and_true]
  exact ⟨⟨_, rfl⟩, ⟨_, rfl⟩⟩

end Engine

end StrayTouch
