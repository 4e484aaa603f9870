import StrayTouch.Document.Atom

/-!
Names: what can be the key of a mapping, the member of a set or the name of a contact. A name is a
scalar or a tuple of names in turn. Two tuples are the same key when their items are, one by one.
-/
namespace StrayTouch

inductive Name where
  | atom (a : Atom)
  | tuple (items : List Name)
  deriving Inhabited

/-- What is the same for names that are the same key. -/
inductive Key where
  | atom (k : Atom.Key)
  | tuple (items : List Key)

namespace Key

@[match_pattern] abbrev number (x : Exact) : Key := .atom (.number x)

@[match_pattern] abbrev text (s : String) : Key := .atom (.text s)

theorem text_injective {s t : String} (h : text s = text t) : s = t :=
  Atom.Key.text.inj (atom.inj h)

theorem number_injective {x y : Exact} (h : number x = number y) : x = y :=
  Atom.Key.number.inj (atom.inj h)

mutual

def decEq : (k l : Key) → Decidable (k = l)
  | .atom k, .atom l => decidable_of_iff (k = l) (Iff.of_eq (atom.injEq k l).symm)
  | .tuple ks, .tuple ls =>
    @decidable_of_iff _ (ks = ls) (Iff.of_eq (tuple.injEq ks ls).symm) (decEqItems ks ls)
  | .atom _, .tuple _ => isFalse nofun
  | .tuple _, .atom _ => isFalse nofun

def decEqItems : (ks ls : List Key) → Decidable (ks = ls)
  | [], [] => isTrue rfl
  | k :: ks, l :: ls =>
    @decidable_of_iff _ (k = l ∧ ks = ls) (Iff.of_eq (List.cons.injEq k ks l ls).symm)
      (@instDecidableAnd _ _ (decEq k l) (decEqItems ks ls))
  | [], _ :: _ => isFalse nofun
  | _ :: _, [] => isFalse nofun

end

instance : DecidableEq Key := decEq

end Key

/-- Why a value cannot be shown. -/
inductive Obstacle where
  | tooLong
  | tooDeep

namespace Name

@[match_pattern] abbrev int (n : Int) : Name := .atom (.int n)

@[match_pattern] abbrev text (s : String) : Name := .atom (.text s)

mutual

def key : Name → Key
  | .atom a => .atom a.key
  | .tuple items => .tuple (keys items)

def keys : List Name → List Key
  | [] => []
  | n :: rest => n.key :: keys rest

end

def sameKey (n m : Name) : Bool :=
  decide (n.key = m.key)

mutual

def shown : Name → String
  | .atom a => a.shown
  | .tuple [n] => "(" ++ n.shown ++ ",)"
  | .tuple items => "(" ++ shownItems items ++ ")"

def shownItems : List Name → String
  | [] => ""
  | [n] => n.shown
  | n :: m :: rest => n.shown ++ ", " ++ shownItems (m :: rest)

end

def spoken : Name → String
  | .atom a => a.spoken
  | n => n.shown

mutual

/-- What keeps a name from being shown where there is room for so many values inside each
other. -/
def obstacle? (room : Nat) (n : Name) : Option Obstacle :=
  match room, n with
  | 0, _ => some .tooDeep
  | _ + 1, .atom a => if a.isShowable then none else some .tooLong
  | room + 1, .tuple items => itemsObstacle? room items

def itemsObstacle? (room : Nat) : List Name → Option Obstacle
  | [] => none
  | n :: rest => (n.obstacle? room).or (itemsObstacle? room rest)

end

def typeName : Name → String
  | .atom a => a.typeName
  | .tuple _ => "tuple"

theorem sameKey_refl (n : Name) : n.sameKey n = true := by
  simp [sameKey]

theorem sameKey_comm (n m : Name) : n.sameKey m = m.sameKey n := by
  simp [sameKey, eq_comm]

theorem sameKey_trans {n m k : Name} (hnm : n.sameKey m = true) (hmk : m.sameKey k = true) :
    n.sameKey k = true := by
  simp_all [sameKey]

end Name

end StrayTouch
