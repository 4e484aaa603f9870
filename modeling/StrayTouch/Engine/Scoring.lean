import StrayTouch.Gesture.Steps
import StrayTouch.Verdict

/-!
The scoring of a gesture as steps on it: stroke by stroke, and for each stroke classifier by
classifier. A classifier may fail, which costs it its own score and nothing else.
-/
namespace StrayTouch

variable {α : Type} [Scalar α]

/-- The score of a classifier for a stroke, or nothing if it fails. -/
def Member.tryScore (m : Member α) (seen : Seen α) : Steps (Gesture α) (Option α) :=
  Steps.attempt do
    let answer ← Steps.of (m.classifier.answer m.evaluator seen)
    Steps.of answer.toReal

namespace Tally

/-- A score, or the substitute where there is none, is put down under a tag: for the stroke at hand
and in the total. -/
def book {σ : Type} (tag : Name) (score? : Option α) (substitute : α)
    (before : List (Name × α) × Tally α) : Steps σ (List (Name × α) × Tally α) := do
  let (entries, t) := before
  let score := score?.getD substitute
  let failed := if score?.isNone then note t.failed tag else t.failed
  let total ← Steps.entry t.scores tag
  return (Keyed.put entries tag score,
    ⟨Keyed.put t.scores tag (total + score), t.strokeScores, failed⟩)

def scoreMember (policy : FailurePolicy) (seen : Seen α)
    (before : List (Name × α) × Tally α) (m : Member α) :
    Steps (Gesture α) (List (Name × α) × Tally α) := do
  let score? ← m.tryScore seen
  book m.tag score? (policy.substitute m.evaluator) before

def scoreStroke (policy : FailurePolicy) (panel : List (Member α)) (t : Tally α)
    (stroke : Name × Seen α) : Steps (Gesture α) (Tally α) := do
  let (entries, t) ← panel.foldlM (scoreMember policy stroke.2) ([], t)
  return ⟨t.scores, Keyed.put t.strokeScores stroke.1 entries, t.failed⟩

end Tally

end StrayTouch
