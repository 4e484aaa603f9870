import StrayTouch.Document.Convert

/-!
Threshold tables. An evaluator turns one number into a score: it adds up the increments of the
thresholds that the number crosses, from the first one on, and stops at the first that it does
not cross.
-/
namespace StrayTouch

/-- A table of thresholds with their increments, sorted as its direction says. -/
structure Evaluator (α : Type) where
  rows : List (α × α)
  direction : Direction

/-- A number to be scored: one of the arithmetic, or a whole number of any size. -/
inductive Measure (α : Type) where
  | number (x : α)
  | whole (n : Int)

/-- What a classifier reads off a stroke: a number of the arithmetic, or any value. -/
inductive Reading (α : Type) where
  | number (x : α)
  | value (v : Value)

variable {α : Type} [Scalar α]

namespace Measure

def above (m : Measure α) (threshold : α) : Bool :=
  match m with
  | number x => Scalar.lt threshold x
  | whole n => Scalar.ltInt threshold n

def below (m : Measure α) (threshold : α) : Bool :=
  match m with
  | number x => Scalar.lt x threshold
  | whole n => Scalar.intLt n threshold

def crosses (m : Measure α) (direction : Direction) (threshold : α) : Bool :=
  match direction with
  | .above => m.above threshold
  | .below => m.below threshold

end Measure

namespace Reading

def measure? : Reading α → Option (Measure α)
  | number x => some (.number x)
  | value (.atom (.bool b)) => some (.whole (if b then 1 else 0))
  | value (.atom (.int n)) => some (.whole n)
  | value (.atom (.float x)) => some (.number (Scalar.ofFloat x))
  | value (.atom (.nan _)) => some (.number (Scalar.ofFloat Binary64.notANumber))
  | value _ => none

def typeName : Reading α → String
  | number _ => "float"
  | value v => v.typeName

def toReal : Reading α → Except Fault α
  | number x => .ok x
  | value v => v.toReal

def toValue : Reading α → Value
  | number x => .float (Scalar.toFloat x)
  | value v => v

def isNull : Reading α → Bool
  | number _ => false
  | value v => v.isNull

end Reading

namespace Evaluator

def floor (_ : Evaluator α) : α :=
  Scalar.zero

def ceiling (ev : Evaluator α) : α :=
  Scalar.sum (ev.rows.map Prod.snd)

/-- The rows that a measure crosses before the first one that it does not. -/
def crossed (ev : Evaluator α) (m : Measure α) : List (α × α) :=
  ev.rows.takeWhile fun row => m.crosses ev.direction row.1

def scoreOf (ev : Evaluator α) (m : Measure α) : α :=
  Scalar.sum ((ev.crossed m).map Prod.snd)

def comparison (direction : Direction) : String :=
  match direction with
  | .above => ">"
  | .below => "<"

/-- The score of a reading. What is no number is refused by the first threshold, and scores the
floor where there is none. -/
def score (ev : Evaluator α) (r : Reading α) : Except Fault α :=
  match r.measure? with
  | some m => .ok (ev.scoreOf m)
  | none =>
    if ev.rows.isEmpty then .ok ev.floor
    else .error (.notOrdered (comparison ev.direction) r.typeName "float")

def same (ev other : Evaluator Float) : Bool :=
  ev.rows.length == other.rows.length
    && ((ev.rows.zip other.rows).all fun p => p.1.1 == p.2.1 && p.1.2 == p.2.2)
    && ev.direction == other.direction

def shown (ev : Evaluator Float) : String :=
  "ThresholdEvaluator([" ++
    ", ".intercalate (ev.rows.map fun row =>
      "(" ++ Decimal.shown row.1 ++ ", " ++ Decimal.shown row.2 ++ ")")
    ++ "], direction='" ++ ev.direction.name ++ "')"

end Evaluator

end StrayTouch
