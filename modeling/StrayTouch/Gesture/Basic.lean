import StrayTouch.Document.Keyed
import StrayTouch.Gesture.Stroke

/-!
A gesture: its contacts in the order in which they first touched, each with its stroke. A contact
begins with its first acceptable point, so that every stroke of a gesture has a point. An
operation that is refused gives no gesture, and the one before it stays as it was.
-/
namespace StrayTouch

structure Gesture (α : Type) where
  dpi : α
  phase : Phase
  contacts : List (Name × Stroke α)

variable {α : Type} [Scalar α]

def Phase.ofValue (v : Value) : Except Fault Phase :=
  match v with
  | .atom (.text name) =>
    match Phase.ofName? name with
    | some p => .ok p
    | none => .error (.notMember v "GestureState")
  | v => .error (.notMember v "GestureState")

namespace Gesture

def empty (dpi : α) : Gesture α :=
  ⟨dpi, .capturing, []⟩

def strokes (g : Gesture α) : List (Stroke α) :=
  g.contacts.map Prod.snd

def contactIds (g : Gesture α) : List Name :=
  Keyed.keys g.contacts

def strokeCount (g : Gesture α) : Nat :=
  g.contacts.length

def activeContacts (g : Gesture α) : List Name :=
  Keyed.keys (g.contacts.filter fun c => !c.2.frozen)

def stroke? (g : Gesture α) (id : Name) : Option (Stroke α) :=
  Keyed.get? g.contacts id

def isFirst (g : Gesture α) (id : Name) : Bool :=
  g.contactIds.head?.any (·.sameKey id)

def toInches (g : Gesture α) (length : Value) : Except Fault α := do
  .ok ((← length.toOperand "/") / g.dpi)

def toPixels (g : Gesture α) (length : Value) : Except Fault α := do
  .ok ((← length.toOperand "*") * g.dpi)

def requireCapturing (g : Gesture α) : Except Fault Unit :=
  if g.phase = .capturing then .ok () else .error (.notCapturing g.phase)

def putStroke (g : Gesture α) (id : Name) (s : Stroke α) : Gesture α :=
  ⟨g.dpi, g.phase, Keyed.put g.contacts id s⟩

/-- A sample of a contact. The sample is read first, then the contact is looked up, and then its
stroke takes the point. -/
def addPoint (g : Gesture α) (id : Value) (sample : Sample) : Except Fault (Gesture α) := do
  g.requireCapturing
  let point ← sample.toPoint
  let key ← id.toName
  let before := (g.stroke? key).getD (Stroke.empty g.dpi)
  let after ← before.append point
  .ok (g.putStroke key after)

/-- A contact is lifted. Lifting it again changes nothing. -/
def endStroke (g : Gesture α) (id : Value) : Except Fault (Gesture α) := do
  g.requireCapturing
  let key ← id.toName
  match g.stroke? key with
  | none => .error (.unknownContact key)
  | some s => .ok (g.putStroke key s.freeze)

def freezeAll (g : Gesture α) : Gesture α :=
  ⟨g.dpi, g.phase, g.contacts.map fun c => (c.1, c.2.freeze)⟩

def withPhase (g : Gesture α) (phase : Phase) : Gesture α :=
  ⟨g.dpi, phase, g.contacts⟩

def cancel (g : Gesture α) : Except Fault (Gesture α) :=
  if g.phase = .decided then .error .alreadyDecided
  else .ok (g.freezeAll.withPhase .decided)

def shown (g : Gesture α) : String :=
  "ClassifierData(dpi=" ++ Decimal.shown (Scalar.toFloat g.dpi) ++ ", strokes="
    ++ toString g.strokeCount ++ ", state=" ++ g.phase.name ++ ")"

end Gesture

end StrayTouch
