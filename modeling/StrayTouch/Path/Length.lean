import StrayTouch.Scalar

/-!
The path through a list of positions: its segments and their lengths. Lengths are added up from the
first to the last. On doubles a sum of eight numbers or more that is added up in pairs may differ
from this one in the last digit; in exact arithmetic there is no difference.
-/
namespace StrayTouch.Path

variable {α : Type} [Scalar α]

def segments : List (α × α) → List (α × α)
  | [] => []
  | [_] => []
  | p :: q :: rest => (q.1 - p.1, q.2 - p.2) :: segments (q :: rest)

def reach (step : α × α) : α :=
  Scalar.hypot step.1 step.2

def length (positions : List (α × α)) : α :=
  Scalar.sum ((segments positions).map reach)

def distance (p q : α × α) : α :=
  Scalar.hypot (p.1 - q.1) (p.2 - q.2)

def moves (positions : List (α × α)) : List (α × α) :=
  (segments positions).filter fun step => Scalar.lt Scalar.zero (reach step)

end StrayTouch.Path
