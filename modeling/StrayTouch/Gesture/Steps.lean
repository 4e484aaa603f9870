import StrayTouch.Gesture.Basic

/-!
The operations on strokes and gestures as the steps they are made of. A step that fails leaves
what the steps before it have done, so that the order of the steps decides what a failed
operation leaves behind.
-/
namespace StrayTouch

/-- Steps on a state, any of which may fail. What was done before a failure stays done. -/
abbrev Steps (σ β : Type) := EStateM Fault σ β

namespace Steps

variable {σ β : Type}

def of (r : Except Fault β) : Steps σ β := fun s =>
  match r with
  | .ok x => .ok x s
  | .error f => .error f s

/-- Steps whose failure ends there: it is seen as nothing, and the state is as they left it. -/
def attempt (m : Steps σ β) : Steps σ (Option β) := fun s =>
  match m.run s with
  | .ok x after => .ok (some x) after
  | .error _ after => .ok none after

/-- What steps make of a value of their own. -/
def madeOf (s : σ) (m : Steps σ Unit) : Except Fault σ :=
  match m.run s with
  | .ok _ after => .ok after
  | .error f _ => .error f

def entry (m : List (Name × β)) (key : Name) : Steps σ β :=
  match Keyed.get? m key with
  | some v => return v
  | none => throw (.keyMissing key)

end Steps

variable {α : Type} [Scalar α]

namespace Stroke

def take (p : Point α) : Steps (Stroke α) Unit := do
  let s ← get
  if s.frozen then throw .strokeFrozen
  if !p.isFinite then throw (p.notFinite (.int p.time))
  match s.points.getLast? with
  | some last =>
    if p.time < last.time then throw (.timeReversed (.int p.time) (.int last.time))
  | none => pure ()
  set (⟨s.dpi, s.points ++ [p], s.frozen⟩ : Stroke α)

end Stroke

namespace Gesture

def onStroke (key : Name) (s : Stroke α) (m : Steps (Stroke α) Unit) : Steps (Gesture α) Unit :=
  fun g =>
    match m.run s with
    | .ok _ after => .ok () (g.putStroke key after)
    | .error f after => .error f (g.putStroke key after)

/-- A sample of a contact is taken. A contact without a stroke gets one once its stroke has a
point. -/
def takePoint (id : Value) (sample : Sample) : Steps (Gesture α) Unit := do
  Steps.of (← get).requireCapturing
  let point ← Steps.of sample.toPoint
  let key ← Steps.of id.toName
  let g ← get
  match g.stroke? key with
  | some s => onStroke key s (Stroke.take point)
  | none =>
    let fresh ← Steps.of ((Stroke.take point).madeOf (Stroke.empty g.dpi))
    modify fun g => g.putStroke key fresh

def liftContact (id : Value) : Steps (Gesture α) Unit := do
  Steps.of (← get).requireCapturing
  let key ← Steps.of id.toName
  match (← get).stroke? key with
  | some s => onStroke key s (modify Stroke.freeze)
  | none => throw (.unknownContact key)

def giveUp : Steps (Gesture α) Unit := do
  if (← get).phase = .decided then throw .alreadyDecided
  modify Gesture.freezeAll
  modify fun g => g.withPhase .decided

end Gesture

end StrayTouch
