import StrayTouch.Config.Basic

/-!
Configurations as documents: a mapping with the sections `display`, `classifier` and
`evaluators`, each of which may be left out.
-/
namespace StrayTouch

variable {α : Type} [Scalar α]

/-- The tables of a document, with those named in `built` standing ready. -/
def TableSources.ofValue (built : List (Name × Evaluator α)) (v : Value) : TableSources α :=
  match v.head with
  | .atom .null => .absent
  | .map entries =>
    .given (entries.map fun e =>
      match Keyed.get? built e.1 with
      | some ev => (e.1, .built ev)
      | none => (e.1, .written e.2))
  | v => .malformed v.shortTypeName

/-- A section of a document. What is void counts as left out. -/
def Value.section? (v : Value) (name : String) : Except Fault Value :=
  let s := v.field name
  if s.isVoid then .ok (.map [])
  else
    match s.head with
    | .map _ => .ok s
    | s => .error (.sectionShape name s.shortTypeName)

def Settings.ofDocument (built : List (Name × Evaluator α)) (document : Value) :
    Except Fault (Settings α) := do
  let root := if document.isVoid then .map [] else document
  match root.head with
  | .map _ =>
    let display ← root.section? "display"
    let classifier ← root.section? "classifier"
    .ok {
      dpi := .value (display.field "dpi")
      rejectThreshold := .value (classifier.field "reject_threshold")
      tiePolicy := classifier.field "tie_policy"
      failurePolicy := classifier.field "failure_policy"
      tables := .ofValue built (root.field "evaluators") }
  | v => .error (.rootShape v.shortTypeName)

namespace Config

def ofDocument (built : List (Name × Evaluator α)) (document : Value) :
    Except Fault (Config α) := do
  build (← Settings.ofDocument built document)

def tableDocument (ev : Evaluator α) : Value :=
  .map
    [(.text "thresholds", .list (ev.rows.map fun row =>
        .list [.float (Scalar.toFloat row.1), .float (Scalar.toFloat row.2)])),
     (.text "direction", .text ev.direction.name)]

def toDocument (c : Config α) : Value :=
  .map
    [(.text "display", .map [(.text "dpi", .float (Scalar.toFloat c.dpi))]),
     (.text "classifier", .map
        [(.text "reject_threshold", .float (Scalar.toFloat c.rejectThreshold)),
         (.text "tie_policy", .text c.tiePolicy.name),
         (.text "failure_policy", .text c.failurePolicy.name)]),
     (.text "evaluators", .map (c.tables.map fun t => (t.1, tableDocument t.2)))]

end Config

def settingNames : List String :=
  ["dpi", "reject_threshold", "tie_policy", "failure_policy", "evaluators"]

def ownName : String := "self"

def Settings.refusal (name : String) : Fault :=
  if name == ownName then .argumentRepeated "ClassifierConfig.__init__" name
  else .argumentUnknown "ClassifierConfig.__init__" name

/-- Settings that stand alone, each under its own name. -/
def Settings.ofArguments (built : List (Name × Evaluator α)) (arguments : List (Name × Value)) :
    Except Fault (Settings α) :=
  match (Keyed.keys arguments).find? fun k => !settingNames.contains k.spoken with
  | some name => .error (Settings.refusal name.spoken)
  | none =>
    let v := Value.map arguments
    .ok {
      dpi := .value (v.field "dpi")
      rejectThreshold := .value (v.field "reject_threshold")
      tiePolicy := v.field "tie_policy"
      failurePolicy := v.field "failure_policy"
      tables := .ofValue built (v.field "evaluators") }

end StrayTouch
