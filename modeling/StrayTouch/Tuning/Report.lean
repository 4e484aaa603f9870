import StrayTouch.Document.Json
import StrayTouch.Document.Keyed
import StrayTouch.Verdict

/-!
Reports: verdicts as they are written down for tuning. The numbers of a report may be any values,
and its strokes are named by contact.
-/
namespace StrayTouch

def Decision.ofValue (v : Value) : Except Fault Decision :=
  match v with
  | .atom (.text name) =>
    match Decision.ofName? name with
    | some d => .ok d
    | none => .error (.notMember v "Decision")
  | v => .error (.notMember v "Decision")

structure Report where
  decision : Decision
  aggregate : Value
  threshold : Value
  scores : List (Name × Value)
  strokeScores : List (Name × List (Name × Value))
  failed : List Value

/-- The report of a verdict. The sum over no classifiers is the whole number zero. -/
def Verdict.report {α : Type} [Scalar α] (v : Verdict α) : Report :=
  let entry := fun (e : Name × α) => ((e.1, .float (Scalar.toFloat e.2)) : Name × Value)
  { decision := v.decision
    aggregate :=
      if v.scores.isEmpty then .int 0 else .float (Scalar.toFloat v.aggregate)
    threshold := .float (Scalar.toFloat v.threshold)
    scores := v.scores.map entry
    strokeScores := v.strokeScores.map fun s => (s.1, s.2.map entry)
    failed := v.failed.map Name.value }

namespace Report

/-- What a contact is called in a report: its plain text. -/
def contactName : Name → Name
  | .atom (.points ns) => .atom (.points ns)
  | id => .text id.spoken

/-- The strokes under the names of their contacts. Of two contacts with the same name the later one
is kept, at the place of the earlier one. -/
def spokenStrokes (r : Report) : List (Name × List (Name × Value)) :=
  Keyed.ofEntries (r.strokeScores.map fun s => (contactName s.1, s.2))

def toValue (r : Report) : Value :=
  .map
    [(.text "decision", .text r.decision.name),
     (.text "aggregate", r.aggregate),
     (.text "threshold", r.threshold),
     (.text "scores", .map r.scores),
     (.text "stroke_scores", .map (r.spokenStrokes.map fun s => (s.1, .map s.2))),
     (.text "failed", .list r.failed)]

/-- The report as a mapping. It names all contacts. -/
def document (r : Report) : Except Fault Value :=
  match r.strokeScores.findSome? fun s => s.1.obstacle? Value.depthLimit with
  | none => .ok r.toValue
  | some o => .error (.ofObstacle o)

/-- The line of a report in a tuning log. -/
def line (r : Report) : Except Fault String := do
  let v ← r.document
  match v.dataFault? with
  | none => .ok v.data
  | some f => .error f

def shownScores (r : Report) : Except Fault String := do
  let parts ← r.scores.mapM fun e => do
    .ok (e.1.spoken ++ "=" ++ (← e.2.formatted "g" (Decimal.general 6)))
  .ok (" ".intercalate parts)

/-- The report in one line, its aggregate and threshold to two places. -/
def summary (r : Report) (scores : String) : Except Fault String := do
  let aggregate ← r.aggregate.toDouble
  let threshold ← r.threshold.toDouble
  .ok (r.decision.title ++ " aggregate=" ++ Decimal.fixed 2 aggregate ++ " threshold="
    ++ Decimal.fixed 2 threshold ++ " | " ++ scores)

def failedList (r : Report) : Except Fault String := do
  let names ← (List.zipIdx r.failed).mapM fun e =>
    match e.1 with
    | .atom (.text s) => .ok s
    | .atom (.points ns) => .ok (Text.spokenPoints ns)
    | v => .error (.notTextItem e.2 v.typeName)
  .ok (", ".intercalate names)

end Report

end StrayTouch
