import StrayTouch.Proofs.Path
import StrayTouch.Proofs.Scalar.Plane
import Mathlib.Algebra.Order.BigOperators.Group.List

/-!
The length of a path in exact arithmetic. It is added up from each position to the next, and it is
never less than the straight way, which is measured back from the last position to the first.
-/
namespace StrayTouch.Path

-- Sums and products in a field are those of the field.
attribute [-instance] Scalar.toAdd Scalar.toSub Scalar.toMul Scalar.toDiv

variable {K : Type} [Field K] [LinearOrder K] [FloorRing K] [Plane K]

theorem length_eq_sum (ps : List (K × K)) : length ps = ((segments ps).map reach).sum :=
  Plane.scalar_sum _

theorem length_cons_cons (p q : K × K) (ps : List (K × K)) :
    length (p :: q :: ps) = reach (q.1 - p.1, q.2 - p.2) + length (q :: ps) := by
  rw [length_eq_sum, length_eq_sum, ← List.sum_cons, ← List.map_cons]
  rfl

/-- A path that goes on gets no shorter, as long as no way is less than nothing. -/
theorem length_le_append [IsStrictOrderedRing K] (h : ∀ m : K × K, 0 ≤ reach m)
    (ps qs : List (K × K)) : length ps ≤ length (ps ++ qs) := by
  have hparts : ((segments ps).map reach).Sublist ((segments (ps ++ qs)).map reach) :=
    (segments_prefix_append ps qs).sublist.map reach
  rw [length_eq_sum, length_eq_sum]
  exact hparts.sum_le_sum (List.forall_mem_map.mpr fun m _ => h m)

theorem length_nonneg_of [IsStrictOrderedRing K] (h : ∀ m : K × K, 0 ≤ reach m)
    (ps : List (K × K)) : 0 ≤ length ps :=
  length_le_append h [] ps

variable [Plane.Metric K]

theorem metric_reach_nonneg (m : K × K) : 0 ≤ reach m :=
  Plane.Metric.hypot_nonneg m.1 m.2

theorem distance_self (p : K × K) : distance p p = 0 :=
  Plane.Metric.hypot_eq_zero_iff.mpr ⟨sub_self p.1, sub_self p.2⟩

/-- The segment on the way and the distance that is left are two sides of a triangle. -/
theorem distance_le (p q r : K × K) :
    distance p r ≤ reach (q.1 - p.1, q.2 - p.2) + distance q r := by
  have htriangle : distance p r ≤ distance q r + reach (q.1 - p.1, q.2 - p.2) := by
    have hsides := Plane.Metric.hypot_sub_le (q.1 - r.1) (q.2 - r.2) (q.1 - p.1) (q.2 - p.2)
    rwa [sub_sub_sub_cancel_left, sub_sub_sub_cancel_left] at hsides
  rwa [add_comm]

theorem reach_eq_zero_iff {p q : K × K} : reach (q.1 - p.1, q.2 - p.2) = 0 ↔ p = q := by
  have hzero : reach (q.1 - p.1, q.2 - p.2) = 0 ↔ q.1 - p.1 = 0 ∧ q.2 - p.2 = 0 :=
    Plane.Metric.hypot_eq_zero_iff
  rw [hzero, sub_eq_zero, sub_eq_zero, ← Prod.ext_iff, eq_comm]

variable [IsStrictOrderedRing K]

/-- A path has no length only where it stays in one place. -/
theorem length_eq_zero_iff {ps : List (K × K)} :
    length ps = 0 ↔ ∀ p ∈ ps, ∀ q ∈ ps, p = q := by
  fun_induction segments ps with
  | case1 => simp [length_eq_sum, segments]
  | case2 p => simp [length_eq_sum, segments]
  | case3 p q rest ih =>
    have hsegment := metric_reach_nonneg (q.1 - p.1, q.2 - p.2)
    have hrest := length_nonneg_of metric_reach_nonneg (q :: rest)
    rw [length_cons_cons, add_eq_zero_iff_of_nonneg hsegment hrest, reach_eq_zero_iff, ih]
    constructor
    · rintro ⟨rfl, hsame⟩ r hr u hu
      have hdrop : p :: p :: rest ⊆ p :: rest := by simp
      exact hsame r (hdrop hr) u (hdrop hu)
    · intro hsame
      refine ⟨hsame p List.mem_cons_self q (List.mem_cons_of_mem p List.mem_cons_self), ?_⟩
      exact fun r hr u hu => hsame r (List.mem_cons_of_mem p hr) u (List.mem_cons_of_mem p hu)

/-- A path is no shorter than the distance of its ends. -/
theorem distance_le_length (p : K × K) (ps : List (K × K)) :
    distance p ((p :: ps).getLast (List.cons_ne_nil p ps)) ≤ length (p :: ps) := by
  induction ps generalizing p with
  | nil => exact (distance_self p).le
  | cons q ps ih =>
    rw [List.getLast_cons_cons, length_cons_cons]
    exact (distance_le p q _).trans (add_le_add_right (ih q) _)

theorem span_le_length (ps : List (K × K)) : (span? ps).elim 0 reach ≤ length ps := by
  match ps with
  | [] => exact le_rfl
  | [p] => exact le_rfl
  | p :: q :: rest =>
    have hlast := List.getLast?_eq_some_getLast (List.cons_ne_nil p (q :: rest))
    rw [span?_eq (by simp) rfl hlast]
    exact distance_le_length p (q :: rest)

end StrayTouch.Path
