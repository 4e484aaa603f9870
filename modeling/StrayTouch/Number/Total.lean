import StrayTouch.Number.Binary64

/-!
The exactly rounded sum of a list of doubles. Doubles are whole multiples of the least positive
one, and sums of them are exact. The terms are gathered in an expansion: rounded parts that add up
to the sum so far, the least one first.
-/
namespace StrayTouch.Binary64

def units (x : Float) : Int :=
  match form x with
  | .finite p => p.signedAt leastExponent
  | _ => 0

def ofUnits? (n : Int) : Option Float :=
  scaled? n leastExponent

/-- A part put at the end of an expansion, unless there is nothing of it. -/
def keep (parts : List Int) (part : Int) : List Int :=
  if part == 0 then parts else parts ++ [part]

/-- A term put into an expansion, of which the parts in `kept` have been passed. Each part takes
the rounded sum of itself and what has been gathered so far on its way, and leaves what rounding
has cut off. A rounded sum beyond the range of the doubles is refused. -/
def absorb (kept : List Int) (term : Int) : List Int → Option (List Int)
  | [] => some (keep kept term)
  | part :: rest => do
    let rounded := units (← ofUnits? (term + part))
    absorb (keep kept (term + part - rounded)) rounded rest

def expansion? (parts : List Int) : List Int → Option (List Int)
  | [] => some parts
  | term :: rest => do expansion? (← absorb [] term parts) rest

def worth : List Int → Int
  | [] => 0
  | part :: rest => part + worth rest

/-- The exactly rounded sum. No part of the expansion may leave the range of the doubles on its
way, so that `1e308 + 1e308 - 1e308` is refused although its value is in range. -/
def total? (xs : List Float) : Option Float := do
  ofUnits? (worth (← expansion? [] (xs.map units)))

theorem worth_append (parts others : List Int) :
    worth (parts ++ others) = worth parts + worth others := by
  induction parts with
  | nil => simp [worth]
  | cons part rest ih => simp only [List.cons_append, worth, ih]; omega

theorem worth_keep (parts : List Int) (part : Int) :
    worth (keep parts part) = worth parts + part := by
  by_cases h : part = 0
  · simp [keep, h]
  · simp [keep, h, worth_append, worth]

/-- Nothing is lost in an expansion: its parts add up to those there were and the term. -/
theorem worth_absorb {kept parts after : List Int} {term : Int}
    (h : absorb kept term parts = some after) :
    worth after = worth kept + term + worth parts := by
  induction parts generalizing kept term with
  | nil =>
    simp only [absorb, Option.some.injEq] at h
    subst h
    simp [worth_keep, worth]
  | cons part rest ih =>
    simp only [absorb] at h
    cases hr : ofUnits? (term + part) with
    | none => simp [hr] at h
    | some x =>
      rw [hr] at h
      have whole := ih h
      rw [whole, worth_keep, worth]
      omega

/-- The expansion of a list of terms adds up to them and to what there was. -/
theorem worth_expansion {parts terms after : List Int} (h : expansion? parts terms = some after) :
    worth after = worth parts + worth terms := by
  induction terms generalizing parts with
  | nil =>
    simp only [expansion?, Option.some.injEq] at h
    subst h
    simp [worth]
  | cons term rest ih =>
    simp only [expansion?] at h
    cases ha : absorb [] term parts with
    | none => simp [ha] at h
    | some next =>
      rw [ha] at h
      have one := worth_absorb ha
      have whole := ih h
      rw [whole, one, worth, worth]
      omega

end StrayTouch.Binary64
