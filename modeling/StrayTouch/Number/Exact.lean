/-!
Real numbers as comparisons see them: every rational, the two infinities, and a value that is
no number. Whole numbers of any size and doubles meet here without rounding.
-/
namespace StrayTouch

/-- A rational, an infinity, or no number at all. -/
inductive Exact where
  | nan
  | negInf
  | finite (q : Rat)
  | posInf
  deriving DecidableEq

namespace Exact

/-- Strict order. What is no number lies below nothing and above nothing. -/
def lt : Exact → Exact → Bool
  | finite a, finite b => decide (a < b)
  | negInf, finite _ => true
  | negInf, posInf => true
  | finite _, posInf => true
  | _, _ => false

/-- Order or equality. What is no number is not even equal to itself. -/
def le : Exact → Exact → Bool
  | finite a, finite b => decide (a ≤ b)
  | negInf, negInf => true
  | negInf, finite _ => true
  | negInf, posInf => true
  | finite _, posInf => true
  | posInf, posInf => true
  | _, _ => false

def eq (a b : Exact) : Bool :=
  a.le b && b.le a

def ofInt (n : Int) : Exact :=
  finite n

theorem nan_lt (a : Exact) : nan.lt a = false := by
  cases a <;> rfl

theorem lt_nan (a : Exact) : a.lt nan = false := by
  cases a <;> rfl

end Exact

end StrayTouch
