import StrayTouch.Classifier.Basic

/-!
Verdicts. Every classifier judges every stroke of a gesture; the judgements are tallied stroke by
stroke, and the sum of all scores is held against the rejection threshold.
-/
namespace StrayTouch

inductive Decision where
  | accept
  | reject
  deriving DecidableEq

namespace Decision

def name : Decision → String
  | accept => "accept"
  | reject => "reject"

def title : Decision → String
  | accept => "ACCEPT"
  | reject => "REJECT"

def ofName? (name : String) : Option Decision :=
  [accept, reject].find? fun d => d.name == name

theorem ofName?_name (d : Decision) : ofName? d.name = some d := by
  cases d <;> decide

end Decision

structure Verdict (α : Type) where
  decision : Decision
  aggregate : α
  threshold : α
  scores : List (Name × α)
  strokeScores : List (Name × List (Name × α))
  /-- The tags of the classifiers that failed on a stroke, in the order of their first failure. -/
  failed : List Name

structure Member (α : Type) where
  classifier : Classifier α
  tag : Name
  evaluator : Evaluator α

/-- What one classifier says of one stroke: what came out, and the score that counts for it. -/
structure Judgement (α : Type) where
  tag : Name
  outcome : Except Fault α
  score : α

structure Tally (α : Type) where
  scores : List (Name × α)
  strokeScores : List (Name × List (Name × α))
  failed : List Name

variable {α : Type} [Scalar α]

def FailurePolicy.substitute (p : FailurePolicy) (ev : Evaluator α) : α :=
  match p with
  | .floor => ev.floor
  | .ceiling => ev.ceiling

namespace Member

def areDistinct : List Name → Bool
  | [] => true
  | a :: rest => !rest.any a.sameKey && areDistinct rest

/-- The classifiers of a panel with their tables. Each needs one. The tags are looked at
afterwards: they have to be keys, of which no two are the same. -/
def panel (c : Config α) (classifiers : List (Classifier α)) :
    Except Fault (List (Member α)) := do
  let tables ← classifiers.mapM fun k => c.evaluatorFor k.feature
  let tags ← classifiers.mapM fun k => k.tag.toName
  if areDistinct tags then
    .ok (List.zipWith (fun k (t, ev) => ⟨k, t, ev⟩) classifiers (tags.zip tables))
  else .error (.duplicateTags (tags.map Name.value))

def judge (policy : FailurePolicy) (seen : Seen α) (m : Member α) : Judgement α :=
  let outcome := m.classifier.answer m.evaluator seen >>= Reading.toReal
  { tag := m.tag
    outcome
    score := match outcome with
      | .ok x => x
      | .error _ => policy.substitute m.evaluator }

end Member

namespace Judgement

def isFailure (j : Judgement α) : Bool :=
  match j.outcome with
  | .ok _ => false
  | .error _ => true

def entry (j : Judgement α) : Name × α :=
  (j.tag, j.score)

end Judgement

namespace Tally

def start (tags : List Name) : Tally α :=
  ⟨tags.map fun t => (t, Scalar.zero), [], []⟩

def addTo (scores : List (Name × α)) (tag : Name) (x : α) : List (Name × α) :=
  scores.map fun e => if e.1.sameKey tag then (e.1, e.2 + x) else e

/-- The list with a tag put at its end, unless it is there. -/
def note (failed : List Name) (tag : Name) : List Name :=
  if failed.any tag.sameKey then failed else failed ++ [tag]

def addJudgement (t : Tally α) (j : Judgement α) : Tally α :=
  ⟨addTo t.scores j.tag j.score, t.strokeScores,
    if j.isFailure then note t.failed j.tag else t.failed⟩

def addStroke (t : Tally α) (stroke : Name × List (Judgement α)) : Tally α :=
  let t := stroke.2.foldl addJudgement t
  ⟨t.scores, Keyed.put t.strokeScores stroke.1 (stroke.2.map Judgement.entry), t.failed⟩

end Tally

namespace Verdict

def ofTally (c : Config α) (t : Tally α) : Verdict α :=
  let aggregate := Scalar.sum (t.scores.map Prod.snd)
  { decision := if c.rejects aggregate then .reject else .accept
    aggregate
    threshold := c.rejectThreshold
    scores := t.scores
    strokeScores := t.strokeScores
    failed := t.failed }

def ofJudgements (c : Config α) (tags : List Name)
    (judged : List (Name × List (Judgement α))) : Verdict α :=
  ofTally c (judged.foldl Tally.addStroke (Tally.start tags))

end Verdict

end StrayTouch
