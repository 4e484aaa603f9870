import StrayTouch.Document.Keyed
import StrayTouch.Evaluator.Build

/-!
Configurations: the tables of the features, the density of the display, and how a gesture is
decided. `Config.build` makes one from settings that may be left out, with the default tables
under those that the settings give.
-/
namespace StrayTouch

/-- What happens to a gesture whose score equals the threshold. -/
inductive TiePolicy where
  | reject
  | accept
  deriving DecidableEq

/-- What a classifier that fails is taken to have scored. -/
inductive FailurePolicy where
  | floor
  | ceiling
  deriving DecidableEq

def TiePolicy.name : TiePolicy → String
  | .reject => "reject"
  | .accept => "accept"

def FailurePolicy.name : FailurePolicy → String
  | .floor => "floor"
  | .ceiling => "ceiling"

structure Config (α : Type) where
  dpi : α
  rejectThreshold : α
  tiePolicy : TiePolicy
  failurePolicy : FailurePolicy
  tables : List (Name × Evaluator α)

inductive TableSource (α : Type) where
  | built (ev : Evaluator α)
  | written (v : Value)

/-- The tables of some settings: none, one for each of some features, or something that is no
mapping. -/
inductive TableSources (α : Type) where
  | absent
  | given (entries : List (Name × TableSource α))
  | malformed (typeName : String)

/-- The settings of a configuration. Null stands for one that is left out. -/
structure Settings (α : Type) where
  dpi : Reading α
  rejectThreshold : Reading α
  tiePolicy : Value
  failurePolicy : Value
  tables : TableSources α

/-- The tables of the features that are always there: seconds for each point, the variance of the
direction, inches each second, inches, a ratio, inches, and contacts beyond the first. -/
def defaultTables : List (String × Direction × List (Float × Nat)) :=
  [("duration_count", .above, [(0.0333, 1), (0.05, 1)]),
   ("angles_variance", .above, [(0.05, 1), (0.1, 1), (0.2, 1), (0.4, 1), (0.8, 1), (1.5, 1)]),
   ("speed", .above, [(35.0, 1), (50.0, 1)]),
   ("end_point_length", .below, [(0.3, 1), (0.2, 1), (0.1, 1), (0.05, 1)]),
   ("end_point_ratio", .below,
    [(0.85, 1), (0.75, 1), (0.65, 1), (0.55, 1), (0.45, 1), (0.35, 1)]),
   ("touch_size", .above, [(0.35, 1), (0.5, 1), (0.7, 1)]),
   ("pointer_count", .above, [(0.5, 2), (1.5, 2)])]

def defaultDpi : Float := 160.0

def defaultRejectThreshold : Float := 5.0

variable {α : Type} [Scalar α]

def defaultEvaluators : List (Name × TableSource α) :=
  defaultTables.map fun t =>
    (.text t.1, .built
      ⟨t.2.2.map fun row => (Scalar.ofFloat row.1, Scalar.ofNat row.2), t.2.1⟩)

namespace Settings

/-- A number that may be left out. A number beyond the range is refused as such. -/
def readNumber (setting : String) (standard : Float) (r : Reading α) : Except Fault α :=
  if r.isNull then .ok (Scalar.ofFloat standard)
  else
    match r.toReal with
    | .ok x => .ok x
    | .error f =>
      if f.blamesRow then .error (.settingNotNumber setting r.toValue) else .error f

def readPolicy {π : Type} (setting : String) (choices : List (String × π)) (standard : π)
    (v : Value) : Except Fault π :=
  if v.isNull then .ok standard
  else
    match v with
    | .atom (.text name) =>
      match choices.find? fun c => c.1 == name with
      | some c => .ok c.2
      | none => .error (.badPolicy setting (choices.map Prod.fst) v)
    | _ => .error (.badPolicy setting (choices.map Prod.fst) v)

def tieChoices : List (String × TiePolicy) :=
  [("reject", .reject), ("accept", .accept)]

def failureChoices : List (String × FailurePolicy) :=
  [("floor", .floor), ("ceiling", .ceiling)]

/-- The settings besides the tables, as a configuration without any. Both numbers are read
before either is looked at. -/
def readScalars (s : Settings α) : Except Fault (Config α) := do
  let dpi ← readNumber "dpi" defaultDpi s.dpi
  let threshold ← readNumber "reject_threshold" defaultRejectThreshold s.rejectThreshold
  if !(Scalar.isFinite dpi && Scalar.lt Scalar.zero dpi) then
    .error (.badDpi (Scalar.toFloat dpi))
  else if !Scalar.isFinite threshold then
    .error (.badRejectThreshold (Scalar.toFloat threshold))
  else
    let tie ← readPolicy "tie_policy" tieChoices .reject s.tiePolicy
    let failure ← readPolicy "failure_policy" failureChoices .floor s.failurePolicy
    .ok ⟨dpi, threshold, tie, failure, []⟩

def readSources (s : Settings α) : Except Fault (List (Name × TableSource α)) :=
  match s.tables with
  | .absent => .ok []
  | .given entries => .ok entries
  | .malformed typeName => .error (.tablesShape typeName)

/-- The features that the settings give tables for beyond the default ones. They are announced
as soon as the rest of the settings has been read. -/
def extraFeatures (s : Settings α) : List Name :=
  match s.readScalars, s.readSources with
  | .ok _, .ok entries =>
    (Keyed.keys entries).filter fun name =>
      (Keyed.get? (defaultEvaluators (α := α)) name).isNone
  | _, _ => []

def readTable (feature : Name) : TableSource α → Except Fault (Evaluator α)
  | .built ev => .ok ev
  | .written v =>
    match v.head with
    | .map _ =>
      match v.field? "thresholds" with
      | none => .error (.thresholdsMissing feature)
      | some table =>
        Evaluator.ofTable table ((v.field? "direction").getD (.text Direction.above.name))
    | .list _ | .tuple _ => Evaluator.ofTable v (.text Direction.above.name)
    | _ => .error (.tableShape feature v.shortTypeName)

def readTables : List (Name × TableSource α) → Except Fault (List (Name × Evaluator α))
  | [] => .ok []
  | (name, source) :: rest => do
    let ev ← readTable name source
    let others ← readTables rest
    .ok ((name, ev) :: others)

end Settings

namespace Config

/-- The configuration of some settings. A table for a default feature takes its place, and the
others follow in their order. -/
def build (s : Settings α) : Except Fault (Config α) := do
  let scalars ← s.readScalars
  let sources ← s.readSources
  let merged := sources.foldl (fun m e => Keyed.put m e.1 e.2) defaultEvaluators
  let tables ← Settings.readTables merged
  .ok ⟨scalars.dpi, scalars.rejectThreshold, scalars.tiePolicy, scalars.failurePolicy, tables⟩

/-- Settings that give this configuration back, its tables as they are. -/
def settings (c : Config α) : Settings α where
  dpi := .number c.dpi
  rejectThreshold := .number c.rejectThreshold
  tiePolicy := .text c.tiePolicy.name
  failurePolicy := .text c.failurePolicy.name
  tables := .given (c.tables.map fun t => (t.1, .built t.2))

def settingsAt (c : Config α) (dpi : Value) : Settings α :=
  ⟨.value dpi, c.settings.rejectThreshold, c.settings.tiePolicy, c.settings.failurePolicy,
    c.settings.tables⟩

def withDpi (c : Config α) (dpi : Value) : Except Fault (Config α) :=
  build (c.settingsAt dpi)

def evaluatorFor (c : Config α) (feature : Value) : Except Fault (Evaluator α) := do
  let name ← feature.toName
  match Keyed.get? c.tables name with
  | some ev => .ok ev
  | none => .error (.noTable feature)

def rejects (c : Config α) (score : α) : Bool :=
  match c.tiePolicy with
  | .reject => Scalar.le c.rejectThreshold score
  | .accept => Scalar.lt c.rejectThreshold score

def rejectsReading (c : Config α) (r : Reading α) : Except Fault Bool :=
  match r.measure? with
  | some (.number x) => .ok (c.rejects x)
  | some (.whole n) =>
    .ok (match c.tiePolicy with
      | .reject => !Scalar.intLt n c.rejectThreshold
      | .accept => Scalar.ltInt c.rejectThreshold n)
  | none =>
    .error (.notOrdered (match c.tiePolicy with | .reject => ">=" | .accept => ">")
      r.typeName "float")

end Config

end StrayTouch
