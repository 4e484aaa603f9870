import StrayTouch.Document.Name

/-!
Values as documents and callers hand them over: scalars, lists, tuples, sets and mappings, without
a promise about which of them stands where. Scalars and tuples of such can be names.

A list or a mapping may hold itself. It is written as a knot, inside which a mark stands for the
whole; `Value.head` unties it by one step, and every reader of a value looks at its head.
-/
namespace StrayTouch

/-- A scalar, a list, a tuple, a set with its members in the order in which they are gone through,
or a mapping with its entries in order. -/
inductive Value where
  | atom (a : Atom)
  | list (items : List Value)
  | tuple (items : List Value)
  | set (members : List Name)
  | map (entries : List (Name × Value))
  /-- A list or a mapping in which `again label` stands for the whole. -/
  | knot (label : Nat) (v : Value)
  | again (label : Nat)
  deriving Inhabited

namespace Value

def null : Value := .atom .null
def bool (b : Bool) : Value := .atom (.bool b)
def int (n : Int) : Value := .atom (.int n)
def float (x : Float) : Value := .atom (.ofFloat x 0)
def text (s : String) : Value := .atom (.text s)

def typeName : Value → String
  | .atom a => a.typeName
  | .list _ => "list"
  | .tuple _ => "tuple"
  | .set _ => "set"
  | .map _ => "dict"
  | .knot _ v => v.typeName
  | .again _ => "list"

def shortTypeName : Value → String
  | .atom a => a.shortTypeName
  | v => v.typeName

def isNull : Value → Bool
  | .atom .null => true
  | _ => false

theorem isNull_iff {v : Value} : v.isNull = true ↔ v = .null := by
  constructor
  · intro h
    unfold isNull at h
    split at h
    next => rfl
    next => cases h
  · rintro rfl
    rfl

/-- Whether a value counts as nothing where a setting may be left out: null, false, a zero, an
empty text, list, tuple, set or mapping. -/
def isVoid : Value → Bool
  | .atom .null => true
  | .atom (.bool b) => !b
  | .atom (.int n) => n == 0
  | .atom (.float x) => x == 0.0
  | .atom (.nan _) => false
  | .atom (.text s) => s.isEmpty
  | .atom (.points _) => false
  | .atom (.bytes bs) => bs.isEmpty
  | .atom (.date _) => false
  | .atom (.moment _) => false
  | .list items => items.isEmpty
  | .tuple items => items.isEmpty
  | .set members => members.isEmpty
  | .map entries => entries.isEmpty
  | .knot _ v => v.isVoid
  | .again _ => true

mutual

def fill (label : Nat) (whole : Value) : Value → Value
  | .atom a => .atom a
  | .list items => .list (fillItems label whole items)
  | .tuple items => .tuple (fillItems label whole items)
  | .set members => .set members
  | .map entries => .map (fillEntries label whole entries)
  | .knot l v => if l == label then .knot l v else .knot l (fill label whole v)
  | .again l => if l == label then whole else .again l

def fillItems (label : Nat) (whole : Value) : List Value → List Value
  | [] => []
  | v :: rest => fill label whole v :: fillItems label whole rest

def fillEntries (label : Nat) (whole : Value) : List (Name × Value) → List (Name × Value)
  | [] => []
  | (k, v) :: rest => (k, fill label whole v) :: fillEntries label whole rest

end

/-- The scalar or the collection that a value is. What a knot holds is filled with the
knot. -/
def head : Value → Value
  | .knot label v => fill label (.knot label v) v
  | v => v

@[simp] theorem head_atom (a : Atom) : (atom a).head = atom a := rfl

@[simp] theorem head_list (items : List Value) : (list items).head = list items := rfl

@[simp] theorem head_tuple (items : List Value) : (tuple items).head = tuple items := rfl

@[simp] theorem head_map (entries : List (Name × Value)) : (map entries).head = map entries := rfl

def dots : Value → String
  | .map _ => "\x7b...\x7d"
  | _ => "[...]"

def dotsIn (around : List (Nat × String)) (label : Nat) : Option String :=
  (around.find? (·.1 == label)).map Prod.snd

mutual

def shownIn (around : List (Nat × String)) : Value → String
  | .atom a => a.shown
  | .list items => "[" ++ shownItems around items ++ "]"
  | .tuple [v] => "(" ++ v.shownIn around ++ ",)"
  | .tuple items => "(" ++ shownItems around items ++ ")"
  | .set [] => "set()"
  | .set members => "\x7b" ++ ", ".intercalate (members.map Name.shown) ++ "\x7d"
  | .map entries => "\x7b" ++ shownEntries around entries ++ "\x7d"
  | .knot label v =>
    match dotsIn around label with
    | some short => short
    | none => v.shownIn ((label, v.dots) :: around)
  | .again label => (dotsIn around label).getD "[...]"

def shownItems (around : List (Nat × String)) : List Value → String
  | [] => ""
  | [v] => v.shownIn around
  | v :: w :: rest => v.shownIn around ++ ", " ++ shownItems around (w :: rest)

def shownEntries (around : List (Nat × String)) : List (Name × Value) → String
  | [] => ""
  | [(k, v)] => k.shown ++ ": " ++ v.shownIn around
  | (k, v) :: e :: rest =>
    k.shown ++ ": " ++ v.shownIn around ++ ", " ++ shownEntries around (e :: rest)

end

def shown (v : Value) : String :=
  v.shownIn []

def spoken : Value → String
  | .atom a => a.spoken
  | v => v.shown

/-- How many values inside each other can be shown. -/
def depthLimit : Nat := 985

mutual

def obstacle? (room : Nat) (v : Value) : Option Obstacle :=
  match room, v with
  | _, .knot _ v => v.obstacle? room
  | _, .again _ => none
  | 0, _ => some .tooDeep
  | _ + 1, .atom a => if a.isShowable then none else some .tooLong
  | room + 1, .list items => itemsObstacle? room items
  | room + 1, .tuple items => itemsObstacle? room items
  | room + 1, .set members => Name.itemsObstacle? room members
  | room + 1, .map entries => entriesObstacle? room entries

def itemsObstacle? (room : Nat) : List Value → Option Obstacle
  | [] => none
  | v :: rest => (v.obstacle? room).or (itemsObstacle? room rest)

def entriesObstacle? (room : Nat) : List (Name × Value) → Option Obstacle
  | [] => none
  | (k, v) :: rest =>
    ((k.obstacle? room).or (v.obstacle? room)).or (entriesObstacle? room rest)

end

mutual

/-- Equality of values. The order of the entries of a mapping does not matter. -/
def equal : Value → Value → Bool
  | .atom a, .atom b => a.equal b
  | .list items, .list others => equalItems items others
  | .tuple items, .tuple others => equalItems items others
  | .set members, .set others => members.length == others.length
      && members.all fun a => others.any a.sameKey
  | .map entries, .map others => entries.length == others.length && equalEntries entries others
  | _, _ => false

def equalItems : List Value → List Value → Bool
  | [], [] => true
  | v :: rest, w :: others => equal v w && equalItems rest others
  | _, _ => false

def equalEntries : List (Name × Value) → List (Name × Value) → Bool
  | [], _ => true
  | (k, v) :: rest, others =>
    (match others.find? fun e => e.1.sameKey k with
      | some e => equal v e.2
      | none => false) && equalEntries rest others

end

end Value

namespace Name

mutual

/-- A name as a value. -/
def value : Name → Value
  | .atom a => .atom a
  | .tuple items => .tuple (values items)

def values : List Name → List Value
  | [] => []
  | n :: rest => n.value :: values rest

end

def isShowable (n : Name) : Bool :=
  (n.obstacle? Value.depthLimit).isNone

end Name

end StrayTouch
