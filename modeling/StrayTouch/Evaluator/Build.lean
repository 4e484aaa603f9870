import StrayTouch.Document.Keyed
import StrayTouch.Evaluator.Basic

/-!
Building evaluators from tables as they are written. A row is two numbers, both finite, the
second not negative; the thresholds are strictly sorted in the direction of the table.
-/
namespace StrayTouch

variable {α : Type} [Scalar α]

/-- Exactly two numbers. They are read one after the other, and a third value is read before it
is found to be too many. -/
def readPair : List Value → Except Fault (α × α)
  | [] => .error (.tooFewItems 0)
  | [v] => do
    let _ ← v.toReal (α := α)
    .error (.tooFewItems 1)
  | [v, w] => do
    let x ← v.toReal
    let y ← w.toReal
    .ok (x, y)
  | v :: w :: u :: _ => do
    let _ ← v.toReal (α := α)
    let _ ← w.toReal (α := α)
    let _ ← u.toReal (α := α)
    .error .tooManyItems

/-- A fault that reading a row is answerable for. A number beyond the range is not among
them. -/
def Fault.blamesRow (f : Fault) : Bool :=
  f.kind == .type || f.kind == .value

def Value.rowNumbers (row : Value) : Except Fault (α × α) :=
  match row.items >>= readPair with
  | .ok numbers => .ok numbers
  | .error f => .error (if f.blamesRow then .badRow row f else f)

def Value.readRow (row : Value) : Except Fault (α × α) := do
  let (threshold, increment) ← row.rowNumbers
  if !(Scalar.isFinite threshold && Scalar.isFinite increment) then
    .error (.rowNotFinite row)
  else if Scalar.lt increment Scalar.zero then
    .error (.negativeIncrement row)
  else
    .ok (threshold, increment)

def Direction.follows (d : Direction) (previous current : α) : Bool :=
  match d with
  | above => Scalar.lt previous current
  | below => Scalar.lt current previous

def Direction.disorder? (d : Direction) : List (α × α) → Option (α × α)
  | [] => none
  | [_] => none
  | row :: next :: rest =>
    if d.follows row.1 next.1 then d.disorder? (next :: rest) else some (row.1, next.1)

namespace Evaluator

/-- An evaluator from its rows. All rows are read before their order is looked at. -/
def ofRows (direction : Direction) (rows : List Value) : Except Fault (Evaluator α) := do
  let read ← rows.mapM Value.readRow
  match direction.disorder? read with
  | some (previous, current) =>
    .error (.thresholdOrder direction (Scalar.toFloat previous) (Scalar.toFloat current))
  | none => .ok ⟨read, direction⟩

def readDirection (v : Value) : Except Fault Direction :=
  match v with
  | .atom (.text name) =>
    match Direction.ofName? name with
    | some d => .ok d
    | none => .error (.badDirection v)
  | _ => .error (.badDirection v)

def ofTable (table direction : Value) : Except Fault (Evaluator α) := do
  let d ← readDirection direction
  let rows ← table.items
  ofRows d rows

def uniform (thresholds increment direction : Value) : Except Fault (Evaluator α) := do
  let values ← thresholds.items
  let d ← readDirection direction
  ofRows d (values.map fun t => .tuple [t, increment])

def uniformNames : List String := ["thresholds", "increment", "direction"]

def familyName : String := "cls"

def uniformRefusal (name : String) : Fault :=
  if name == familyName then .argumentRepeated "ThresholdEvaluator.uniform" name
  else .argumentUnknown "ThresholdEvaluator.uniform" name

/-- An evaluator with one increment from what it is made of, each part under its own name. Only the
thresholds may not be left out. -/
def uniformOf (arguments : List (Name × Value)) : Except Fault (Evaluator α) :=
  match (Keyed.keys arguments).find? fun k => !uniformNames.contains k.spoken with
  | some name => .error (uniformRefusal name.spoken)
  | none =>
    match Keyed.get? arguments (.text "thresholds") with
    | none => .error (.argumentsMissing "ThresholdEvaluator.uniform" ["thresholds"])
    | some thresholds =>
      uniform thresholds ((Keyed.get? arguments (.text "increment")).getD (.float 1.0))
        ((Keyed.get? arguments (.text "direction")).getD (.text Direction.above.name))

end Evaluator

end StrayTouch
