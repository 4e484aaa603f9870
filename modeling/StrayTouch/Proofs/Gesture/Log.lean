import StrayTouch.Gesture.Stroke
import StrayTouch.Proofs.Keyed
import Mathlib.Data.List.Induction

/-!
The log of the touches on a gesture, and what can be read off it: the contacts in the order of
their first points, the points of each contact, and which contacts have been lifted. The log knows
nothing of strokes.
-/
namespace StrayTouch.Gesture

inductive Entry (α : Type) where
  | point (id : Name) (p : Point α)
  | up (id : Name)

variable {α : Type}

namespace Entry

def pressed? : Entry α → Option Name
  | point id _ => some id
  | up _ => none

def pointFor? (id : Name) : Entry α → Option (Point α)
  | point key p => if key.sameKey id then some p else none
  | up _ => none

def lifts (id : Name) : Entry α → Bool
  | point _ _ => false
  | up key => key.sameKey id

end Entry

namespace Log

/-- The contacts in the order of their first points, each as it was first spelled. -/
def contacts (log : List (Entry α)) : List Name :=
  (log.filterMap Entry.pressed?).eraseDupsBy Name.sameKey

def pointsOf (log : List (Entry α)) (id : Name) : List (Point α) :=
  log.filterMap (Entry.pointFor? id)

def isLifted (log : List (Entry α)) (id : Name) : Bool :=
  log.any (Entry.lifts id)

variable {log : List (Entry α)} {id key : Name} {p : Point α}

theorem contacts_append_point (log : List (Entry α)) (key : Name) (p : Point α) :
    contacts (log ++ [.point key p]) =
      if (contacts log).any key.sameKey then contacts log else contacts log ++ [key] := by
  simp only [contacts, List.filterMap_append, List.filterMap_cons, List.filterMap_nil,
    Entry.pressed?]
  exact Name.eraseDupsBy_concat _ _

@[simp] theorem contacts_append_up (log : List (Entry α)) (key : Name) :
    contacts (log ++ [.up key]) = contacts log := by
  simp only [contacts, List.filterMap_append, List.filterMap_cons, List.filterMap_nil,
    Entry.pressed?, List.append_nil]

@[simp] theorem pointsOf_append_point (log : List (Entry α)) (key : Name) (p : Point α)
    (id : Name) : pointsOf (log ++ [.point key p]) id =
      if key.sameKey id then pointsOf log id ++ [p] else pointsOf log id := by
  by_cases h : key.sameKey id = true <;> simp [pointsOf, Entry.pointFor?, h]

@[simp] theorem pointsOf_append_up (log : List (Entry α)) (key id : Name) :
    pointsOf (log ++ [.up key]) id = pointsOf log id := by
  simp [pointsOf, Entry.pointFor?]

@[simp] theorem isLifted_append_point (log : List (Entry α)) (key : Name) (p : Point α)
    (id : Name) : isLifted (log ++ [.point key p]) id = isLifted log id := by
  simp [isLifted, Entry.lifts]

@[simp] theorem isLifted_append_up (log : List (Entry α)) (key id : Name) :
    isLifted (log ++ [.up key]) id = (isLifted log id || key.sameKey id) := by
  simp [isLifted, Entry.lifts]

theorem pointsOf_congr {other : Name} (h : id.key = other.key) :
    pointsOf log id = pointsOf log other := by
  refine List.filterMap_congr fun e _ => ?_
  cases e <;> simp [Entry.pointFor?, Name.sameKey, h]

theorem isLifted_congr {other : Name} (h : id.key = other.key) :
    isLifted log id = isLifted log other := by
  have he : Entry.lifts (α := α) id = Entry.lifts other := by
    funext e
    cases e <;> simp [Entry.lifts, Name.sameKey, h]
  rw [isLifted, he, isLifted]

theorem nodup_contacts (log : List (Entry α)) : ((contacts log).map Name.key).Nodup :=
  Name.nodup_eraseDupsBy _

theorem any_contacts_iff (log : List (Entry α)) (id : Name) :
    (contacts log).any id.sameKey = true ↔ pointsOf log id ≠ [] := by
  induction log using List.reverseRecOn with
  | nil => simp [contacts, pointsOf]
  | append_singleton log e ih =>
    cases e with
    | up key => simpa using ih
    | point key p =>
      rw [contacts_append_point, pointsOf_append_point]
      by_cases hk : key.key = id.key
      · have hs : key.sameKey id = true := Name.sameKey_iff.mpr hk
        have hf : id.sameKey = key.sameKey := by
          funext other
          simp only [Name.sameKey, hk]
        simp only [hs, ↓reduceIte, hf]
        split
        next h => simp [h]
        next => simp [Name.sameKey_refl]
      · have hs : key.sameKey id = false := Name.sameKey_eq_false_iff.mpr hk
        have hs' : id.sameKey key = false := Name.sameKey_comm _ _ ▸ hs
        have ho : (contacts log ++ [key]).any id.sameKey = (contacts log).any id.sameKey := by
          simp [hs']
        simp only [hs, Bool.false_eq_true, ↓reduceIte, ← ih]
        split
        next => rfl
        next => rw [ho]

end Log

end StrayTouch.Gesture
