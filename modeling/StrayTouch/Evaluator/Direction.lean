/-!
The direction in which the thresholds of a table are crossed.
-/
namespace StrayTouch

/-- Whether a table scores values over its thresholds or under them. -/
inductive Direction where
  | above
  | below
  deriving DecidableEq

namespace Direction

def name : Direction → String
  | above => "above"
  | below => "below"

def order : Direction → String
  | above => "ascending"
  | below => "descending"

def ofName? (name : String) : Option Direction :=
  [above, below].find? fun d => d.name == name

theorem ofName?_name (d : Direction) : ofName? d.name = some d := by
  cases d <;> decide

end Direction

end StrayTouch
