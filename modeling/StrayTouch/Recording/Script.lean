import StrayTouch.Engine.Basic

/-!
Recorded gestures. A recording lists strokes, each with the points of one contact and perhaps its
name; a stroke without a name is named by its place in the list. Read from the front, a recording
is a script of calls, up to the first place where it is malformed.
-/
namespace StrayTouch

def Value.sequence? (v : Value) : Option (List Value) :=
  match v.head with
  | .list items | .tuple items => some items
  | _ => none

/-- Calls, and the fault that follows them if the recording goes on with nothing readable. -/
structure Script where
  calls : List Call
  fault? : Option Fault

namespace Script

def empty : Script := ⟨[], none⟩

def single (c : Call) : Script := ⟨[c], none⟩

def stop (f : Fault) : Script := ⟨[], some f⟩

/-- One script after another. Nothing follows a fault. -/
def followedBy (a b : Script) : Script :=
  match a.fault? with
  | some f => ⟨a.calls, some f⟩
  | none => ⟨a.calls ++ b.calls, b.fault?⟩

def sequence : List Script → Script
  | [] => empty
  | s :: rest => s.followedBy (sequence rest)

/-- A point of a stroke: a list or a tuple of a position, a time, and perhaps a size. Its time is
read as a whole number first; what follows the size does not matter. -/
def ofPoint (index : Nat) (id : Value) (point : Value) : Script :=
  match point.sequence? with
  | some (x :: y :: t :: rest) =>
    match t.toWhole with
    | .error f => stop f
    | .ok time => single (.point id ⟨x, y, .int time, rest.head?.getD .null⟩)
  | _ => stop (.pointShape index point)

def ofStroke (index : Nat) (stroke : Value) : Script :=
  match stroke.head with
  | .map _ =>
    let id := (stroke.field? "contact_id").getD (.int index)
    match ((stroke.field? "points").getD (.list [])).head with
    | .list points =>
      (sequence (points.map (ofPoint index id))).followedBy (single (.up id))
    | _ => stop (.strokeShape index)
  | _ => stop (.strokeShape index)

def ofStrokes (index : Nat) : List Value → Script
  | [] => empty
  | s :: rest => (ofStroke index s).followedBy (ofStrokes (index + 1) rest)

end Script

end StrayTouch
