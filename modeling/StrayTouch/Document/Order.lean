import StrayTouch.Document.Convert

/-!
The order of values: numbers by what they are, texts by their code points, and lists and tuples by
the first items that differ. Other values, and values of different sorts, have none.
-/
namespace StrayTouch.Value

def notLess (v w : Value) : Fault :=
  .notOrdered "<" v.typeName w.typeName

def lessAtom (a b : Atom) : Except Fault Bool :=
  match a.asExact?, b.asExact?, a.points?, b.points? with
  | some x, some y, _, _ => .ok (x.lt y)
  | _, _, some ms, some ns => .ok (decide (ms < ns))
  | _, _, _, _ => .error (notLess (.atom a) (.atom b))

mutual

def less : Value → Value → Except Fault Bool
  | .atom a, .atom b => lessAtom a b
  | .list items, .list others => lessItems items others
  | .tuple items, .tuple others => lessItems items others
  | v, w => .error (notLess v w)

/-- Whether one list is less than another: by their first items that differ, or else because it
ends first. -/
def lessItems : List Value → List Value → Except Fault Bool
  | [], others => .ok (!others.isEmpty)
  | _ :: _, [] => .ok false
  | v :: rest, w :: others => if v.equal w then lessItems rest others else less v w

end

end StrayTouch.Value
