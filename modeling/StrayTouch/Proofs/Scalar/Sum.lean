import StrayTouch.Proofs.Scalar
import Mathlib.Algebra.BigOperators.Group.List.Basic
import Mathlib.Data.List.Perm.Basic

/-!
Sums that are exact. Some numbers stand for the elements of a commutative monoid; as long as a total
is one of those that fit, it does not depend on the order in which its terms are added.
-/
namespace StrayTouch.Scalar

variable {α M : Type} [Scalar α] [AddCommMonoid M]

/-- Numbers that stand for the elements of a monoid. A sum that fits is that of the elements, and
what fits together with more fits by itself. -/
structure Exactly (value : M → α) (Fits : M → Prop) : Prop where
  zero : value 0 = Scalar.zero
  add {a b : M} : Fits (a + b) → value a + value b = value (a + b)
  fits_left {a b : M} : Fits (a + b) → Fits a

namespace Exactly

variable {value : M → α} {Fits : M → Prop} {a : M} {as : List M} {xs ys : List α}

theorem fits_right {b : M} (h : Exactly value Fits) (hf : Fits (a + b)) : Fits b := by
  rw [add_comm] at hf
  exact h.fits_left hf

theorem fits_of_mem (h : Exactly value Fits) (hf : Fits as.sum) (ha : a ∈ as) : Fits a := by
  induction as with
  | nil => cases ha
  | cons b as ih =>
    rw [List.sum_cons] at hf
    rcases List.mem_cons.mp ha with rfl | ha
    · exact h.fits_left hf
    · exact ih (h.fits_right hf) ha

theorem foldl_add (h : Exactly value Fits) (hf : Fits (a + as.sum)) :
    (as.map value).foldl (· + ·) (value a) = value (a + as.sum) := by
  induction as generalizing a with
  | nil => simp
  | cons b as ih =>
    rw [List.sum_cons, ← add_assoc] at hf ⊢
    rw [List.map_cons, List.foldl_cons, h.add (h.fits_left hf)]
    exact ih hf

theorem sum_map (h : Exactly value Fits) (hf : Fits as.sum) :
    Scalar.sum (as.map value) = value as.sum := by
  have hzero : Fits (0 + as.sum) := by rwa [zero_add]
  have hfold := h.foldl_add hzero
  rw [h.zero, zero_add] at hfold
  exact hfold

/-- A total that fits is the same in whatever order its terms are added. -/
theorem sum_perm (h : Exactly value Fits) (hf : Fits as.sum) (hx : xs = as.map value)
    (hp : ys.Perm xs) : Scalar.sum ys = Scalar.sum xs := by
  subst hx
  have hperm : Relation.Comp (fun zs bs => zs = bs.map value) List.Perm ys as := by
    rw [List.eq_map_comp_perm]
    exact hp
  obtain ⟨bs, rfl, hbs⟩ := hperm
  rw [h.sum_map hf, h.sum_map (hbs.sum_eq ▸ hf), hbs.sum_eq]

end Exactly

end StrayTouch.Scalar
