import StrayTouch.Path.Heading
import StrayTouch.Proofs.Path
import StrayTouch.Proofs.Scalar.Plane

/-!
Paths that rest. A position that is reported once more makes a segment without a length, which is no
move and adds nothing to the length of the path, as long as the arithmetic knows that nothing has
happened (`Scalar.Still`).
-/
namespace StrayTouch

/-- What stays where it is adds nothing: a finite number less itself is zero, which is no length, and
a sum of lengths stays as it is where zero is added to it. -/
class Scalar.Still (α : Type) [Scalar α] : Prop where
  sub_self {x : α} : isFinite x = true → x - x = zero
  hypot_zero : hypot zero zero = (zero : α)
  not_lt_zero : lt zero (zero : α) = false
  length_add_zero (steps : List (α × α)) :
    sum (steps.map Path.reach) + zero = sum (steps.map Path.reach)

namespace Path

/-- The second list is the first one with elements `z` put in anywhere. -/
inductive Padded {β : Type} (z : β) : List β → List β → Prop
  | nil : Padded z [] []
  | keep (x : β) {xs ys : List β} : Padded z xs ys → Padded z (x :: xs) (x :: ys)
  | pad {xs ys : List β} : Padded z xs ys → Padded z xs (z :: ys)

theorem Padded.filter_eq {β : Type} {z : β} {xs ys : List β} (h : Padded z xs ys) {p : β → Bool}
    (hz : p z = false) : ys.filter p = xs.filter p := by
  induction h with
  | nil => rfl
  | keep x _ ih => rw [List.filter_cons, List.filter_cons, ih]
  | pad _ ih => rw [List.filter_cons, hz, ← ih]; rfl

/-- The second path is the first one with rests: each position may be reported several times. -/
inductive Rests {α : Type} : List (α × α) → List (α × α) → Prop
  | nil : Rests [] []
  | move (p : α × α) {ps qs : List (α × α)} : Rests ps qs → Rests (p :: ps) (p :: qs)
  | rest {p : α × α} {ps qs : List (α × α)} : Rests (p :: ps) qs → Rests (p :: ps) (p :: qs)

namespace Rests

variable {α : Type} {p : α × α} {ps qs : List (α × α)}

theorem head?_eq (h : Rests ps qs) : qs.head? = ps.head? := by
  cases h <;> rfl

theorem exists_cons (h : Rests (p :: ps) qs) : ∃ rest, qs = p :: rest := by
  cases h with
  | move _ _ => exact ⟨_, rfl⟩
  | rest _ => exact ⟨_, rfl⟩

theorem getLast?_eq (h : Rests ps qs) : qs.getLast? = ps.getLast? := by
  induction h with
  | nil => rfl
  | move p _ ih => rw [List.getLast?_cons, List.getLast?_cons, ih]
  | rest _ ih => rw [List.getLast?_cons, ih, List.getLast?_cons]; rfl

theorem length_le (h : Rests ps qs) : ps.length ≤ qs.length := by
  induction h with
  | nil => exact Nat.le_refl _
  | move _ _ ih => exact Nat.succ_le_succ ih
  | rest _ ih => exact Nat.le_succ_of_le ih

/-- A position that is followed by others at the same place. -/
theorem replicate (h : Rests ps qs) (p : α × α) (n : Nat) :
    Rests (p :: ps) (p :: (List.replicate n p ++ qs)) := by
  induction n with
  | zero => exact .move p h
  | succ n ih => exact .rest ih

end Rests

variable {α : Type} [Scalar α] {ps qs : List (α × α)}

theorem Rests.span?_eq (h : Rests ps qs) (hlong : 2 ≤ ps.length) : span? qs = span? ps := by
  have hne : ps ≠ [] := List.ne_nil_of_length_pos (by omega)
  have hhead := List.head?_eq_some_head hne
  have hlast := List.getLast?_eq_some_getLast hne
  rw [Path.span?_eq hlong hhead hlast,
    Path.span?_eq (hlong.trans h.length_le) (h.head?_eq.trans hhead) (h.getLast?_eq.trans hlast)]

variable [Scalar.Still α]

theorem reach_zero : reach ((Scalar.zero, Scalar.zero) : α × α) = Scalar.zero :=
  Scalar.Still.hypot_zero

theorem Padded.foldl_reach {steps padded : List (α × α)}
    (h : Padded (Scalar.zero, Scalar.zero) steps padded) (before : List (α × α)) :
    (padded.map reach).foldl (· + ·) (Scalar.sum (before.map reach)) =
      (steps.map reach).foldl (· + ·) (Scalar.sum (before.map reach)) := by
  -- Zero may be added to a sum of lengths only, so the sum so far is kept as one, of `before`.
  induction h generalizing before with
  | nil => rfl
  | keep step _ ih =>
    have hnext : Scalar.sum (before.map reach) + reach step =
        Scalar.sum ((before ++ [step]).map reach) := by
      rw [Scalar.sum, Scalar.sum, List.map_append, List.foldl_append]
      rfl
    rw [List.map_cons, List.foldl_cons, List.map_cons, List.foldl_cons, hnext]
    exact ih (before ++ [step])
  | pad _ ih =>
    rw [List.map_cons, List.foldl_cons, reach_zero, Scalar.Still.length_add_zero]
    exact ih before

namespace Rests

theorem padded (h : Rests ps qs)
    (hfinite : ∀ p ∈ ps, Scalar.isFinite p.1 = true ∧ Scalar.isFinite p.2 = true) :
    Padded (Scalar.zero, Scalar.zero) (segments ps) (segments qs) := by
  induction h with
  | nil => exact .nil
  | @move p ps qs h ih =>
    have hrest := ih fun q hq => hfinite q (List.mem_cons_of_mem p hq)
    cases h with
    | nil => exact .nil
    | move q h => exact .keep _ hrest
    | rest h => exact .keep _ hrest
  | @rest p ps qs h ih =>
    obtain ⟨rest, rfl⟩ := h.exists_cons
    have hstill : (p.1 - p.1, p.2 - p.2) = (Scalar.zero, Scalar.zero) := by
      obtain ⟨hx, hy⟩ := hfinite p List.mem_cons_self
      rw [Scalar.Still.sub_self hx, Scalar.Still.sub_self hy]
    rw [segments, hstill]
    exact .pad (ih hfinite)

theorem moves_eq (h : Rests ps qs)
    (hfinite : ∀ p ∈ ps, Scalar.isFinite p.1 = true ∧ Scalar.isFinite p.2 = true) :
    moves qs = moves ps := by
  refine (h.padded hfinite).filter_eq ?_
  rw [reach_zero]
  exact Scalar.Still.not_lt_zero

theorem length_eq (h : Rests ps qs)
    (hfinite : ∀ p ∈ ps, Scalar.isFinite p.1 = true ∧ Scalar.isFinite p.2 = true) :
    length qs = length ps :=
  (h.padded hfinite).foldl_reach []

end Rests

end Path

section Exact

-- Sums and products in a field are those of the field.
attribute [-instance] Scalar.toAdd Scalar.toSub Scalar.toMul Scalar.toDiv

variable {K : Type} [Field K] [LinearOrder K] [IsStrictOrderedRing K] [FloorRing K] [Plane K]

instance [Plane.Lawful K] : Scalar.Still K where
  sub_self := fun {x} _ => sub_self x
  hypot_zero := by
    have hdouble := Plane.Lawful.hypot_mul (two_pos : (0 : K) < 2) 0 0
    rw [mul_zero, two_mul, left_eq_add] at hdouble
    exact hdouble
  not_lt_zero := decide_eq_false (lt_irrefl 0)
  length_add_zero := fun _ => add_zero _

end Exact

end StrayTouch
