import StrayTouch.Document.Convert

/-!
A touch sample before its numbers are read. What a point can be asked, a sample can be asked too,
and it says what it lacks for an answer.
-/
namespace StrayTouch

/-- A sample as handed over, its size null where none is reported. -/
structure Sample where
  x : Value
  y : Value
  time : Value
  size : Value

namespace Sample

/-- What is wrong with the number of arguments of a call whose object counts as one. The last may
be left out. -/
def countFault? (callee : String) (names : List String) (given : Nat) : Option Fault :=
  if given < names.length then some (.argumentsMissing callee (names.drop given))
  else if names.length + 1 < given then
    some (.argumentsExcess callee (names.length + 1) (names.length + 2) (given + 1))
  else none

/-- The sample in the arguments of a call: a position, a time, and perhaps a size. The names of
the arguments before it stand in `before`. -/
def ofArguments (callee : String) (before : List String) (arguments : List Value) :
    Except Fault Sample :=
  let names := before ++ ["x", "y", "timestamp_nanos"]
  match countFault? callee names arguments.length, arguments.drop before.length with
  | some f, _ => .error f
  | none, x :: y :: time :: rest => .ok ⟨x, y, time, rest.head?.getD .null⟩
  | none, _ => .error (.argumentsMissing callee names)

def toPoint {α : Type} [Scalar α] (s : Sample) : Except Fault (Point α) := do
  let x ← s.x.toReal
  let y ← s.y.toReal
  let time ← s.time.toWhole
  let size ← if s.size.isNull then .ok none else s.size.toReal.map some
  .ok ⟨x, y, time, size⟩

def shown (s : Sample) : Except Fault String := do
  let x ← s.x.formatted "f" (Decimal.fixed 1)
  let y ← s.y.formatted "f" (Decimal.fixed 1)
  .ok (Point.worded x y s.time.spoken)

/-- Whether all numbers are finite. The first that is not settles it. -/
def allFinite : List Value → Except Fault Bool
  | [] => .ok true
  | v :: rest => do
    let x ← v.toDouble
    if Binary64.isFinite x then allFinite rest else .ok false

def isFinite (s : Sample) : Except Fault Bool :=
  allFinite (if s.size.isNull then [s.x, s.y] else [s.x, s.y, s.size])

def distance (s t : Sample) : Except Fault Float := do
  let dx ← s.x.difference t.x
  let dy ← s.y.difference t.y
  let x ← dx.toDouble
  let y ← dy.toDouble
  .ok (Binary64.hypotenuse x y)

def equal (s t : Sample) : Bool :=
  s.x.equal t.x && s.y.equal t.y && s.time.equal t.time && s.size.equal t.size

end Sample

end StrayTouch
