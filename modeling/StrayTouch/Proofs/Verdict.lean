import StrayTouch.Verdict
import StrayTouch.Proofs.Keyed

/-!
What a tally comes to. Totals and failures depend on the judgements in their order alone, whatever
strokes they belong to, and the scores of the strokes stand under distinct contacts as they came.
-/
namespace StrayTouch

variable {α : Type} [Scalar α]

namespace Tally

@[simp] theorem marks_addTo (scores : List (Name × α)) (tag : Name) (x : α) :
    Keyed.marks (addTo scores tag x) = Keyed.marks scores := by
  simp only [Keyed.marks, addTo, List.map_map]
  apply List.map_congr_left
  intro e _
  simp only [Function.comp]
  split <;> rfl

theorem marks_start (tags : List Name) :
    Keyed.marks (start (α := α) tags).scores = tags.map Name.key := by
  simp [Keyed.marks, start]

def totals (scores : List (Name × α)) (js : List (Judgement α)) : List (Name × α) :=
  js.foldl (fun scores j => addTo scores j.tag j.score) scores

omit [Scalar α] in
def failures (failed : List Name) (js : List (Judgement α)) : List Name :=
  js.foldl (fun failed j => if j.isFailure then note failed j.tag else failed) failed

theorem marks_totals (scores : List (Name × α)) (js : List (Judgement α)) :
    Keyed.marks (totals scores js) = Keyed.marks scores := by
  induction js generalizing scores with
  | nil => rfl
  | cons j js ih => exact (ih _).trans (marks_addTo _ _ _)

theorem foldl_addJudgement (t : Tally α) (js : List (Judgement α)) :
    js.foldl addJudgement t = ⟨totals t.scores js, t.strokeScores, failures t.failed js⟩ := by
  induction js generalizing t with
  | nil => rfl
  | cons j js ih => exact ih _

theorem foldl_addStroke (t : Tally α) (judged : List (Name × List (Judgement α))) :
    judged.foldl addStroke t =
      ⟨totals t.scores (judged.flatMap Prod.snd),
        (judged.map fun s => (s.1, s.2.map Judgement.entry)).foldl
          (fun m e => Keyed.put m e.1 e.2) t.strokeScores,
        failures t.failed (judged.flatMap Prod.snd)⟩ := by
  induction judged generalizing t with
  | nil => rfl
  | cons s judged ih =>
    rw [List.foldl_cons, ih, addStroke, foldl_addJudgement]
    simp only [totals, failures, List.flatMap_cons, List.foldl_append, List.map_cons,
      List.foldl_cons]

/-- The total under a tag is the sum of the scores with that tag, in their order. -/
theorem totals_eq_map (scores : List (Name × α)) (js : List (Judgement α)) :
    totals scores js = scores.map fun e =>
      (e.1, ((js.filter fun j => e.1.sameKey j.tag).map Judgement.score).foldl (· + ·) e.2) := by
  induction js generalizing scores with
  | nil => exact (List.map_id scores).symm
  | cons j js ih =>
    have hstep : totals scores (j :: js) = totals (addTo scores j.tag j.score) js := rfl
    rw [hstep, ih, addTo, List.map_map]
    refine List.map_congr_left fun e _ => ?_
    by_cases h : e.1.sameKey j.tag = true <;> simp [h]

omit [Scalar α] in
private theorem failures_eq_loop (failed : List Name) (js : List (Judgement α)) :
    failures failed js =
      List.eraseDupsBy.loop Name.sameKey ((js.filter Judgement.isFailure).map Judgement.tag)
        failed.reverse := by
  induction js generalizing failed with
  | nil => simp [failures, List.eraseDupsBy.loop]
  | cons j js ih =>
    have hstep : failures failed (j :: js) =
        failures (if j.isFailure then note failed j.tag else failed) js := rfl
    rw [hstep, ih]
    cases hf : j.isFailure with
    | false => simp [hf]
    | true =>
      cases hn : failed.any j.tag.sameKey <;>
        simp [hf, note, hn, List.eraseDupsBy.loop]

omit [Scalar α] in
/-- The failures are the tags of the failed judgements in their order, each only once. -/
theorem failures_eq_eraseDupsBy (js : List (Judgement α)) :
    failures [] js =
      ((js.filter Judgement.isFailure).map Judgement.tag).eraseDupsBy Name.sameKey :=
  failures_eq_loop [] js

end Tally

/-- The verdict on judgements that belong to distinct contacts. -/
theorem Verdict.ofJudgements_zip (c : Config α) (tags ids : List Name)
    {judged : List (List (Judgement α))} (hl : ids.length = judged.length)
    (hd : (ids.map Name.key).Nodup) :
    Verdict.ofJudgements c tags (ids.zip judged) =
      Verdict.ofTally c
        ⟨Tally.totals (Tally.start tags).scores judged.flatten,
          ids.zip (judged.map fun js => js.map Judgement.entry),
          Tally.failures [] judged.flatten⟩ := by
  have hs : (ids.zip judged).flatMap Prod.snd = judged.flatten := by
    rw [List.flatMap_def, List.map_snd_zip (by simp [hl])]
  have hz : (ids.zip judged).map (fun s => (s.1, s.2.map Judgement.entry)) =
      ids.zip (judged.map fun js => js.map Judgement.entry) :=
    List.zip_map_right.symm
  have hm : Keyed.Distinct (ids.zip (judged.map fun js => js.map Judgement.entry)) := by
    rw [Keyed.Distinct, Keyed.marks_eq_map_keys, Keyed.keys, List.map_fst_zip (by simp [hl])]
    exact hd
  rw [ofJudgements, Tally.foldl_addStroke, hs, hz]
  exact congrArg (fun m => ofTally c ⟨_, m, _⟩) (Keyed.ofEntries_eq_self hm)

end StrayTouch
