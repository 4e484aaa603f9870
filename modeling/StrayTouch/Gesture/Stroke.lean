import StrayTouch.Gesture.Sample
import StrayTouch.Path.Heading
import StrayTouch.Path.Spread

/-!
A stroke: the points of one contact from press to release. Points are only ever added at the
end, must be finite and must not go back in time; a frozen stroke takes no more. Positions are
pixels, and every length that a stroke reports is in inches.
-/
namespace StrayTouch

structure Stroke (α : Type) where
  dpi : α
  points : List (Point α)
  frozen : Bool

variable {α : Type} [Scalar α]

namespace Point

def isFinite (p : Point α) : Bool :=
  Scalar.isFinite p.x && Scalar.isFinite p.y && p.size.all Scalar.isFinite

def position (p : Point α) : α × α :=
  (p.x, p.y)

def notFinite (p : Point α) (time : Value) : Fault :=
  .pointNotFinite (Scalar.toFloat p.x) (Scalar.toFloat p.y) time

end Point

def nanosPerSecond : Nat := 1000000000

/-- A density in dots per inch as handed over: over zero, then read as a number. -/
def readDensity (v : Value) : Except Fault α := do
  if ← v.exceeds 0 then v.toReal else .error (.dpiNotPositive v)

namespace Stroke

def empty (dpi : α) : Stroke α :=
  ⟨dpi, [], false⟩

def count (s : Stroke α) : Nat :=
  s.points.length

def append (s : Stroke α) (p : Point α) : Except Fault (Stroke α) :=
  if s.frozen then .error .strokeFrozen
  else if !p.isFinite then .error (p.notFinite (.int p.time))
  else
    let grown : Stroke α := ⟨s.dpi, s.points ++ [p], s.frozen⟩
    match s.points.getLast? with
    | none => .ok grown
    | some last =>
      if p.time < last.time then .error (.timeReversed (.int p.time) (.int last.time))
      else .ok grown

def freeze (s : Stroke α) : Stroke α :=
  ⟨s.dpi, s.points, true⟩

def positions (s : Stroke α) : List (α × α) :=
  s.points.map Point.position

/-- From the first point to the last; zero for fewer than two. -/
def durationNanos (s : Stroke α) : Int :=
  match s.points.head?, s.points.getLast? with
  | some first, some last => last.time - first.time
  | _, _ => 0

def durationSeconds (s : Stroke α) : Except Fault α :=
  match Scalar.ratio? s.durationNanos nanosPerSecond with
  | some x => .ok x
  | none => .error .quotientTooLarge

def totalLength (s : Stroke α) : α :=
  Path.length s.positions / s.dpi

def endPointLength (s : Stroke α) : α :=
  match s.positions with
  | first :: next :: rest => Path.distance first ((next :: rest).getLast?.getD next) / s.dpi
  | _ => Scalar.zero

def averageSpeed (s : Stroke α) : Except Fault α := do
  .ok (velocity s.totalLength (← s.durationSeconds))

def headings (s : Stroke α) : List α :=
  Path.headings s.positions

def headingVariance (s : Stroke α) : α :=
  variance s.headings

/-- The mean size in inches of the points that have one. -/
def meanSize (s : Stroke α) : Except Fault (Option α) :=
  let sizes := s.points.filterMap Point.size
  if sizes.isEmpty then .ok none
  else
    match Scalar.total? sizes with
    | none => .error .sumTooLarge
    | some total => .ok (some (total / Scalar.ofNat sizes.length / s.dpi))

def shownFor (s : Stroke α) (seconds : α) : String :=
  "Stroke(" ++ toString s.count ++ " points, " ++ Decimal.fixed 3 (Scalar.toFloat seconds)
    ++ "s, " ++ (if s.frozen then "frozen" else "capturing") ++ ")"

/-- How messages show a stroke. Its duration may be beyond what can be shown. -/
def shown (s : Stroke α) : Except Fault String := do
  .ok (s.shownFor (← s.durationSeconds))

end Stroke

end StrayTouch
