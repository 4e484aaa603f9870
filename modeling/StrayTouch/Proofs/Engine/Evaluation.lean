import StrayTouch.Engine.Basic
import StrayTouch.Proofs.Engine.Panel
import StrayTouch.Proofs.Gesture.Steps
import StrayTouch.Proofs.Verdict

/-!
The steps of an evaluation come to `Engine.evaluate`. Once the gesture is being decided nothing
fails any more: a classifier that fails is replaced by its substitute, and the total of every tag
is there when it is needed.
-/
namespace StrayTouch

variable {α : Type}

namespace Steps

variable {σ β γ : Type}

theorem entry_run {m : List (Name × β)} {key : Name} {value : β} (s : σ)
    (h : Keyed.get? m key = some value) : (entry m key).run s = .ok value s := by
  simp [entry, h]

/-- A loop of steps that leave the state alone is a fold, as long as each step is sure to come
out. -/
theorem foldlM_run (P : β → Prop) {step : β → γ → Steps σ β} (next : β → γ → β) (s : σ)
    (xs : List γ)
    (h : ∀ x ∈ xs, ∀ acc, P acc → (step acc x).run s = .ok (next acc x) s ∧ P (next acc x))
    (acc : β) (hacc : P acc) : (xs.foldlM step acc).run s = .ok (xs.foldl next acc) s := by
  induction xs generalizing acc with
  | nil => rfl
  | cons x xs ih =>
    obtain ⟨hr, hp⟩ := h x List.mem_cons_self acc hacc
    rw [List.foldlM_cons, EStateM.run_bind, hr]
    exact ih (fun y hy => h y (List.mem_cons_of_mem _ hy)) _ hp

end Steps

variable [Scalar α]

namespace Member

theorem judge_tag (policy : FailurePolicy) (seen : Seen α) (m : Member α) :
    (m.judge policy seen).tag = m.tag := rfl

/-- Trying a classifier cannot fail, and it gives what the judgement of the classifier says. -/
theorem tryScore_run (policy : FailurePolicy) (m : Member α) (seen : Seen α) (g : Gesture α) :
    (m.tryScore seen).run g =
      .ok (if (m.judge policy seen).isFailure then none else some (m.judge policy seen).score)
        g := by
  unfold tryScore
  cases ha : m.classifier.answer m.evaluator seen with
  | error f =>
    have hj : (m.judge policy seen).isFailure = true := by
      simp [judge, Judgement.isFailure, ha]
    rw [if_pos hj]
    exact Steps.run_attempt_of_error (f := f) (by simp)
  | ok answer =>
    cases hr : answer.toReal with
    | error f =>
      have hj : (m.judge policy seen).isFailure = true := by
        simp [judge, Judgement.isFailure, ha, hr]
      rw [if_pos hj]
      exact Steps.run_attempt_of_error (f := f) (by simp [hr])
    | ok x =>
      have hj : (m.judge policy seen).isFailure = false := by
        simp [judge, Judgement.isFailure, ha, hr]
      have hs : (m.judge policy seen).score = x := by simp [judge, ha, hr]
      rw [hj, hs]
      exact Steps.run_attempt_of_ok (by simp [hr])

end Member

namespace Tally

private def enter (policy : FailurePolicy) (seen : Seen α)
    (before : List (Name × α) × Tally α) (m : Member α) : List (Name × α) × Tally α :=
  (Keyed.put before.1 m.tag (m.judge policy seen).score,
    before.2.addJudgement (m.judge policy seen))

private theorem scoreMember_run (policy : FailurePolicy) (seen : Seen α) (g : Gesture α)
    {before : List (Name × α) × Tally α} {m : Member α} (hd : Keyed.Distinct before.2.scores)
    (hm : m.tag.key ∈ Keyed.marks before.2.scores) :
    (scoreMember policy seen before m).run g = .ok (enter policy seen before m) g := by
  obtain ⟨total, ht⟩ : ∃ total, Keyed.get? before.2.scores m.tag = some total := by
    rw [← Option.isSome_iff_exists, Option.isSome_iff_ne_none]
    exact fun hn => Keyed.get?_eq_none_iff.mp hn hm
  have hput := Keyed.put_eq_map hd ht (· + (m.judge policy seen).score)
  simp only [scoreMember, book, EStateM.run_bind, m.tryScore_run policy, Steps.entry_run g ht]
  simp only [enter, addJudgement, addTo, m.judge_tag, ← hput]
  cases hj : (m.judge policy seen).isFailure with
  | false => simp
  | true =>
    have hs : policy.substitute m.evaluator = (m.judge policy seen).score := by
      simp only [Member.judge, Judgement.isFailure] at hj ⊢
      split <;> simp_all
    simp [hs]

private theorem foldl_enter (policy : FailurePolicy) (seen : Seen α) (panel : List (Member α))
    (before : List (Name × α) × Tally α) :
    panel.foldl (enter policy seen) before =
      ((panel.map (Member.judge policy seen)).foldl (fun m j => Keyed.put m j.tag j.score) before.1,
        (panel.map (Member.judge policy seen)).foldl addJudgement before.2) := by
  induction panel generalizing before with
  | nil => rfl
  | cons m panel ih => rw [List.foldl_cons, ih]; rfl

theorem scoreStroke_run (policy : FailurePolicy) {panel : List (Member α)} (g : Gesture α)
    (t : Tally α) (stroke : Name × Seen α) (hp : (panel.map fun m => m.tag.key).Nodup)
    (ht : Keyed.marks t.scores = panel.map fun m => m.tag.key) :
    (scoreStroke policy panel t stroke).run g =
      .ok (t.addStroke (stroke.1, panel.map (Member.judge policy stroke.2))) g := by
  have hloop := Steps.foldlM_run
    (fun before => Keyed.marks before.2.scores = panel.map fun m => m.tag.key)
    (enter policy stroke.2) g panel
    (fun m hm before hb => ⟨scoreMember_run policy stroke.2 g
        (by rw [Keyed.Distinct, hb]; exact hp) (by rw [hb]; exact List.mem_map_of_mem hm),
      by simp only [enter, addJudgement, marks_addTo, hb]⟩) ([], t) ht
  have hentries : ((panel.map (Member.judge policy stroke.2)).foldl
      (fun m j => Keyed.put m j.tag j.score) []) =
        (panel.map (Member.judge policy stroke.2)).map Judgement.entry := by
    have hd : Keyed.Distinct ((panel.map (Member.judge policy stroke.2)).map Judgement.entry) := by
      simpa [Keyed.Distinct, Keyed.marks, Judgement.entry, Member.judge, Function.comp_def] using hp
    rw [← Keyed.ofEntries_eq_self hd]
    simp only [Keyed.ofEntries, List.foldl_map]
    rfl
  rw [scoreStroke, EStateM.run_bind, hloop, foldl_enter, hentries]
  rfl

theorem scoreStrokes_run (policy : FailurePolicy) {panel : List (Member α)} (g : Gesture α)
    (strokes : List (Name × Seen α)) (hp : (panel.map fun m => m.tag.key).Nodup) :
    (strokes.foldlM (scoreStroke policy panel) (start (panel.map Member.tag))).run g =
      .ok ((strokes.map fun s => (s.1, panel.map (Member.judge policy s.2))).foldl addStroke
        (start (panel.map Member.tag))) g := by
  have hstart : Keyed.marks (start (α := α) (panel.map Member.tag)).scores =
      panel.map fun m => m.tag.key := by
    rw [marks_start, List.map_map]
    rfl
  rw [List.foldl_map]
  refine Steps.foldlM_run
    (fun t => Keyed.marks t.scores = panel.map fun m => m.tag.key) _ g strokes ?_ _ hstart
  intro stroke _ t ht
  refine ⟨scoreStroke_run policy g t stroke hp ht, ?_⟩
  rw [addStroke, foldl_addJudgement, marks_totals, ht]

end Tally

namespace Engine

/-- The steps of an evaluation end with the verdict and the decided gesture of `Engine.evaluate`,
or with its fault and the gesture as it was. -/
theorem decideGesture_run (e : Engine α) (g : Gesture α) :
    e.decideGesture.run g =
      match e.evaluate g with
      | .ok (v, after) => .ok v after
      | .error f => .error f g := by
  unfold decideGesture evaluate judge Gesture.beginEvaluation
  cases hp : Member.panel e.config e.classifiers with
  | error f => rfl
  | ok panel =>
  by_cases hc : g.phase = .capturing
  · by_cases hs : g.strokeCount = 0
    · simp [hc, hs]
    · have hrun := Tally.scoreStrokes_run e.config.failurePolicy
        (g.withPhase .evaluating).freezeAll (g.withPhase .evaluating).freezeAll.seen
        (Member.panel_eq_ok_iff.mp hp).2
      simp only [ok_bind, hc, hs, ne_eq, not_true_eq_false, ↓reduceIte, Steps.run_of_ok,
        EStateM.run_bind, EStateM.run_get, EStateM.run_modify, EStateM.run_pure, hrun]
      rfl
  · simp [hc]

end Engine

end StrayTouch
