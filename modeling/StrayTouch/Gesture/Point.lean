import StrayTouch.Decimal.Places

/-!
A recorded touch sample, over any kind of number, and the phases of a gesture.
-/
namespace StrayTouch

/-- A touch sample: a position in pixels, a time in nanoseconds, and the size of the contact
where the digitizer reports one. -/
structure Point (α : Type) where
  x : α
  y : α
  time : Int
  size : Option α

namespace Point

def worded (x y time : String) : String :=
  "Point(" ++ x ++ ", " ++ y ++ ", t=" ++ time ++ ")"

def shown (p : Point Float) : String :=
  worded (Decimal.fixed 1 p.x) (Decimal.fixed 1 p.y) (toString p.time)

end Point

/-- The life of a gesture: it takes points, it is being decided, it has been decided. -/
inductive Phase where
  | capturing
  | evaluating
  | decided
  deriving DecidableEq

def Phase.name : Phase → String
  | .capturing => "capturing"
  | .evaluating => "evaluating"
  | .decided => "decided"

def Phase.ofName? (name : String) : Option Phase :=
  [capturing, evaluating, decided].find? fun p => p.name == name

theorem Phase.ofName?_name (p : Phase) : ofName? p.name = some p := by
  cases p <;> decide

end StrayTouch
