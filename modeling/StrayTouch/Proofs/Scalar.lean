import StrayTouch.Scalar
import Mathlib.Data.List.Forall2

/-!
What is asked of an arithmetic for sums to keep the order. On numbers from zero on, addition is
monotone in each of its terms; nothing is said of its being exact.
-/
namespace StrayTouch.Scalar

/-- Addition that keeps the order of numbers from zero on. -/
class Monotone (α : Type) [Scalar α] : Prop where
  le_trans {x y z : α} : le x y = true → le y z = true → le x z = true
  lt_of_lt_of_le {x y z : α} : lt x y = true → le y z = true → lt x z = true
  le_of_not_lt {x y : α} :
    isFinite x = true → isFinite y = true → lt x y = false → le y x = true
  isFinite_zero : isFinite (zero : α) = true
  le_refl {x : α} : le zero x = true → le x x = true
  zero_le_zero : le (zero : α) zero = true
  le_add_zero {x : α} : le zero x = true → le x (x + zero) = true
  add_le_add {x y u v : α} : le zero x = true → le x y = true → le zero u = true →
    le u v = true → le (x + u) (y + v) = true

/-- Comparisons that agree with one another, those with whole numbers among them. -/
class Ordered (α : Type) [Scalar α] : Prop where
  le_of_lt {x y : α} : lt x y = true → le x y = true
  lt_of_le_of_lt {x y z : α} : le x y = true → lt y z = true → lt x z = true
  ltInt_of_le {x y : α} {n : Int} : le x y = true → ltInt y n = true → ltInt x n = true
  intLt_of_le {x y : α} {n : Int} : intLt n x = true → le x y = true → intLt n y = true

/-- Counts that keep their order as numbers. -/
class Counting (α : Type) [Scalar α] : Prop where
  ofNat_le {m n : Nat} : m ≤ n → le (ofNat m : α) (ofNat n) = true

variable {α : Type} [Scalar α] [Monotone α] {x y : α} {xs ys : List α}

theorem le_add (hx : le zero x = true) (hy : le zero y = true) : le x (x + y) = true :=
  Monotone.le_trans (Monotone.le_add_zero hx)
    (Monotone.add_le_add hx (Monotone.le_refl hx) Monotone.zero_le_zero hy)

theorem le_foldl_add (hx : le zero x = true) (hxs : ∀ y ∈ xs, le zero y = true) :
    le x (xs.foldl (· + ·) x) = true := by
  induction xs generalizing x with
  | nil => exact Monotone.le_refl hx
  | cons y ys ih =>
    obtain ⟨hy, hys⟩ := List.forall_mem_cons.mp hxs
    have hxy := le_add hx hy
    exact Monotone.le_trans hxy (ih (Monotone.le_trans hx hxy) hys)

theorem foldl_add_le_foldl_add (hx : le zero x = true) (hxy : le x y = true)
    (h : List.Forall₂ (fun u v => le zero u = true ∧ le u v = true) xs ys) :
    le (xs.foldl (· + ·) x) (ys.foldl (· + ·) y) = true := by
  induction h generalizing x y with
  | nil => exact hxy
  | cons huv _ ih =>
    obtain ⟨hu, huv⟩ := huv
    exact ih (Monotone.le_trans hx (le_add hx hu)) (Monotone.add_le_add hx hxy hu huv)

theorem sum_nonneg (h : ∀ x ∈ xs, le zero x = true) : le zero (sum xs) = true :=
  le_foldl_add Monotone.zero_le_zero h

theorem sum_le_sum (h : List.Forall₂ (fun u v => le zero u = true ∧ le u v = true) xs ys) :
    le (sum xs) (sum ys) = true :=
  foldl_add_le_foldl_add Monotone.zero_le_zero Monotone.zero_le_zero h

theorem foldl_add_le_of_sublist (hs : xs.Sublist ys) (hys : ∀ y ∈ ys, le zero y = true)
    (hx : le zero x = true) (hxy : le x y = true) :
    le (xs.foldl (· + ·) x) (ys.foldl (· + ·) y) = true := by
  induction hs generalizing x y with
  | slnil => exact hxy
  | cons a _ ih =>
    obtain ⟨ha, hys⟩ := List.forall_mem_cons.mp hys
    exact ih hys hx (Monotone.le_trans hxy (le_add (Monotone.le_trans hx hxy) ha))
  | cons_cons a _ ih =>
    obtain ⟨ha, hys⟩ := List.forall_mem_cons.mp hys
    exact ih hys (Monotone.le_trans hx (le_add hx ha))
      (Monotone.add_le_add hx hxy ha (Monotone.le_refl ha))

/-- A sum of numbers from zero on is no lower than that of a part of them. -/
theorem sum_le_sum_of_sublist (hs : xs.Sublist ys) (hys : ∀ y ∈ ys, le zero y = true) :
    le (sum xs) (sum ys) = true :=
  foldl_add_le_of_sublist hs hys Monotone.zero_le_zero Monotone.zero_le_zero

end StrayTouch.Scalar
