import StrayTouch.Proofs.Classifier.Alike
import StrayTouch.Proofs.Engine.Interleaving

/-!
Gestures that the classifiers of the library do not tell apart: their contacts are the same, with
strokes that are alike. They are decided alike, down to the last score.
-/
namespace StrayTouch

variable {α : Type} [Scalar α]

theorem Member.judge_congr {m : Member α} {x y : Seen α} (policy : FailurePolicy)
    (h : m.outcome x = m.outcome y) : m.judge policy x = m.judge policy y := by
  unfold outcome at h
  unfold judge
  rw [h]

omit [Scalar α] in
theorem Stroke.forall₂_seenIn {R : Stroke α → Stroke α → Prop} {strokes others : List (Stroke α)}
    (h : List.Forall₂ R strokes others) :
    List.Forall₂ (fun x y : Seen α => R x.stroke y.stroke ∧ x.SamePlace y)
      (seenIn strokes) (seenIn others) := by
  have hlength := h.length_eq
  rw [List.forall₂_iff_get] at h ⊢
  refine ⟨by rw [length_seenIn, length_seenIn, hlength], fun i hi ho => ?_⟩
  rw [length_seenIn] at hi ho
  have hrelated := h.2 i hi ho
  simp only [List.get_eq_getElem] at hrelated ⊢
  simp only [seenIn, List.getElem_map, List.getElem_zipIdx]
  exact ⟨hrelated, rfl, hlength⟩

namespace Engine

theorem verdictOn_alike (e : Engine α) {panel : List (Member α)}
    (hpanel : ∀ m ∈ panel, ∃ v : Variant, m.classifier = v.classifier) (ids : List Name)
    {strokes others : List (Stroke α)} (h : List.Forall₂ Stroke.Alike strokes others) :
    e.verdictOn panel ids others = e.verdictOn panel ids strokes := by
  have hjudged : (Stroke.seenIn strokes).map
      (fun s => panel.map (Member.judge e.config.failurePolicy s)) =
        (Stroke.seenIn others).map fun s => panel.map (Member.judge e.config.failurePolicy s) := by
    rw [← List.forall₂_eq_eq_eq, List.forall₂_map_left_iff, List.forall₂_map_right_iff]
    refine (Stroke.forall₂_seenIn h).imp fun x y hxy => ?_
    refine List.map_congr_left fun m hm => ?_
    obtain ⟨v, hv⟩ := hpanel m hm
    exact Member.judge_congr _ (Member.outcome_congr hv hxy.1.count
      (Variant.read_congr hxy.1 fun _ => hxy.2))
  rw [verdictOn, verdictOn, hjudged]

theorem step_evaluate_reply (e : Engine α) (g : Gesture α) :
    (e.step g .evaluate).1 =
      match Member.panel e.config e.classifiers with
      | .error f => .refused f
      | .ok panel =>
        if g.phase ≠ .capturing then .refused (.notEvaluable g.phase)
        else if g.contactIds.length = 0 then .refused .emptyGesture
        else .verdict (e.verdictOn panel g.contactIds g.freezeAll.strokes) := by
  have hcount : g.contactIds.length = g.strokeCount := List.length_map _
  rw [step_evaluate, evaluate, judge, Gesture.beginEvaluation, hcount]
  cases Member.panel e.config e.classifiers with
  | error f => rfl
  | ok panel =>
    by_cases hphase : g.phase = .capturing
    · by_cases hnone : g.strokeCount = 0
      · simp [hphase, hnone]
      · simp [hphase, hnone, judgements_eq, verdictOn]
    · simp [hphase]

/-- Gestures of the same contacts, with strokes that are alike, get the same reply. The density of
the configuration does not count, since strokes go by that of their gesture. -/
theorem evaluate_alike {c : Config α} (density : α) (ks : List Variant) {g other : Gesture α}
    (hphase : other.phase = g.phase) (hids : other.contactIds = g.contactIds)
    (halike : List.Forall₂ Stroke.Alike g.freezeAll.strokes other.freezeAll.strokes) :
    ((⟨{ c with dpi := density }, ks.map Variant.classifier⟩ : Engine α).step other .evaluate).1 =
      ((⟨c, ks.map Variant.classifier⟩ : Engine α).step g .evaluate).1 := by
  have hpanels : Member.panel { c with dpi := density } (ks.map Variant.classifier) =
      Member.panel c (ks.map Variant.classifier) := rfl
  rw [step_evaluate_reply, step_evaluate_reply, hphase, hids, hpanels]
  cases hp : Member.panel c (ks.map Variant.classifier) with
  | error f => rfl
  | ok panel =>
    have hpanel : ∀ m ∈ panel, ∃ v : Variant, m.classifier = v.classifier := by
      intro m hm
      obtain ⟨k, hk, hseat⟩ := exists_of_forall₂ (Member.panel_eq_ok_iff.mp hp).1 hm
      obtain ⟨v, _, rfl⟩ := List.mem_map.mp hk
      exact ⟨v, hseat.classifier⟩
    have hverdict := verdictOn_alike ⟨c, ks.map Variant.classifier⟩ hpanel g.contactIds halike
    simp only
    rw [← hverdict]
    rfl

end Engine

end StrayTouch
