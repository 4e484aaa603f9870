import StrayTouch.Document.Keyed

/-!
The order in which the members of a set are gone through. A set of numbers is laid out in a table
that has more than twice as many slots as members, and each number goes to the slot of its residue
or, where that is taken, to one further on; the order is that of the slots. A set with members of
other kinds keeps the order in which they came.
-/
namespace StrayTouch

def residueModulus : Nat := twoTo 61 - 1

def infinityResidue : Nat := 314159

def residueOf (mantissa : Nat) (exponent : Int) : Nat :=
  mantissa % residueModulus * twoTo (exponent % 61).toNat % residueModulus

/-- A residue with a sign, as a number of sixty-four bits. There is no minus one; it becomes minus
two. -/
def signedResidue (negative : Bool) (residue : Nat) : Nat :=
  if !negative || residue == 0 then residue
  else twoTo 64 - (if residue == 1 then 2 else residue)

/-- The residue of a number, by which it has its place; what is equal has equal ones. -/
def Atom.residue? : Atom → Option Nat
  | .bool b => some (if b then 1 else 0)
  | .int n => some (signedResidue (n < 0) (residueOf n.natAbs 0))
  | .float x =>
    match Binary64.form x with
    | .finite p => some (signedResidue p.negative (residueOf p.mantissa p.exponent))
    | .infinite negative => some (signedResidue negative infinityResidue)
    | .nan => none
  | _ => none

/-- A tuple has no place of its own. -/
def Name.residue? : Name → Option Nat
  | .atom a => a.residue?
  | .tuple _ => none

def leastSlots : Nat := 8

/-- The least power of two, from `size` on, that is greater than a bound. No more than `bound`
doublings are needed. -/
def slotsBeyond (bound size : Nat) : Nat → Nat
  | 0 => size
  | more + 1 => if size ≤ bound then slotsBeyond bound (2 * size) more else size

/-- The number of slots for so many members. Up to four fit into the least number. -/
def slotCount (members : Nat) : Nat :=
  if members < 5 then leastSlots else slotsBeyond (2 * members) leastSlots (2 * members)

/-- How many slots after a first one are tried in a row, if there are as many. -/
def neighbourCount : Nat := 9

def freeSlot? (slots : Array (Option Name)) (tried : List Nat) : Option Nat :=
  tried.find? fun i => ((slots[i]?).join).isNone

/-- The slot that a member gets: a free one from slot `i` on, or else from a slot that the higher
bits of the residue lead to. After so many tries any is taken. -/
def slotFor (slots : Array (Option Name)) (i bits : Nat) : Nat → Nat
  | 0 => (freeSlot? slots (List.range slots.size)).getD 0
  | tries + 1 =>
    let reach := if i + neighbourCount < slots.size then neighbourCount else 0
    match freeSlot? slots (List.range' i (reach + 1)) with
    | some slot => slot
    | none =>
      let bits := bits / 32
      slotFor slots ((i * 5 + 1 + bits) % slots.size) bits tries

def membersInOrder (members : List Name) : List Name :=
  match members.mapM Name.residue? with
  | none => members
  | some residues =>
    let size := slotCount members.length
    let slots := (members.zip residues).foldl (fun (slots : Array (Option Name)) (a, r) =>
      slots.setIfInBounds (slotFor slots (r % size) r (64 + size)) (some a))
      (Array.replicate size none)
    slots.toList.filterMap id

end StrayTouch
