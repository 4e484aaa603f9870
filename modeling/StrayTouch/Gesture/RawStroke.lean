import StrayTouch.Document.Order
import StrayTouch.Gesture.Stroke

/-!
A stroke whose times are kept as they are handed over, whatever they are. They are compared and
subtracted only where a stroke of whole times would do so, and fail only there; what does not hang
on time is that of a stroke.
-/
namespace StrayTouch

/-- A stroke, all points of which stand at one time, and the times that they were given. -/
structure RawStroke (α : Type) where
  shape : Stroke α
  times : List Value

namespace RawStroke

variable {α : Type} [Scalar α]

def empty (dpi : α) : RawStroke α :=
  ⟨.empty dpi, []⟩

def freeze (s : RawStroke α) : RawStroke α :=
  ⟨s.shape.freeze, s.times⟩

def checkTime (s : RawStroke α) (time : Value) : Except Fault Unit :=
  match s.times.getLast? with
  | none => .ok ()
  | some last => do
    if ← time.less last then .error (.timeReversed time last) else .ok ()

def append (s : RawStroke α) (x y : α) (time : Value) (size : Option α) :
    Except Fault (RawStroke α) := do
  let p : Point α := ⟨x, y, 0, size⟩
  if s.shape.frozen then .error .strokeFrozen
  else if !p.isFinite then .error (p.notFinite time)
  else
    s.checkTime time
    .ok ⟨⟨s.shape.dpi, s.shape.points ++ [p], s.shape.frozen⟩, s.times ++ [time]⟩

/-- From the first time to the last; zero for fewer than two. -/
def duration (s : RawStroke α) : Except Fault Value :=
  match s.times with
  | first :: next :: rest => ((next :: rest).getLast?.getD next).difference first
  | _ => .ok (.int 0)

def durationSeconds (s : RawStroke α) : Except Fault α := do
  (← s.duration).dividedBy nanosPerSecond

def averageSpeed (s : RawStroke α) : Except Fault α := do
  .ok (velocity s.shape.totalLength (← s.durationSeconds))

def shownPoints (s : RawStroke α) : List String :=
  List.zipWith (fun p t => Point.worded (Decimal.fixed 1 (Scalar.toFloat p.x))
    (Decimal.fixed 1 (Scalar.toFloat p.y)) t.spoken) s.shape.points s.times

def shown (s : RawStroke α) : Except Fault String := do
  .ok (s.shape.shownFor (← s.durationSeconds))

end RawStroke

end StrayTouch
