import StrayTouch.Proofs.Classifier.Variant
import StrayTouch.Proofs.Evaluator
import StrayTouch.Proofs.Path.Heading
import StrayTouch.Proofs.Path.Spread

/-!
What the variance of the direction tells, in exact arithmetic: it vanishes exactly on the strokes
that keep their heading, wherever they go and however long they rest on the way.
-/
namespace StrayTouch

-- Sums and products in a field are those of the field.
attribute [-instance] Scalar.toAdd Scalar.toSub Scalar.toMul Scalar.toDiv

open Plane

variable {K : Type} [Field K] [LinearOrder K] [IsStrictOrderedRing K] [FloorRing K] [Plane K]
  [Plane.Principal K]

omit [IsStrictOrderedRing K] [FloorRing K] in
theorem isPrincipal_atan2 (y x : K) : Path.IsPrincipal (atan2 y x) :=
  ⟨Principal.neg_pi_lt_atan2 y x, Directed.atan2_le_pi y x⟩

namespace Stroke

omit [IsStrictOrderedRing K] in
theorem mem_rawHeadings_iff {ps : List (K × K)} {x : K} : x ∈ Path.rawHeadings ps ↔
    ∃ m ∈ Path.segments ps, Path.reach m ≠ 0 ∧ atan2 m.2 m.1 = x := by
  have hmap : Path.rawHeadings ps = (Path.moves ps).map fun m => atan2 m.2 m.1 := rfl
  simp only [hmap, List.mem_map, Path.moves_eq_stretches, Path.stretches, List.mem_filter, decide_eq_true_eq,
    and_assoc]

omit [IsStrictOrderedRing K] in
theorem isPrincipal_of_mem_rawHeadings {ps : List (K × K)} {x : K}
    (h : x ∈ Path.rawHeadings ps) : Path.IsPrincipal x := by
  obtain ⟨m, _, _, rfl⟩ := mem_rawHeadings_iff.mp h
  exact isPrincipal_atan2 m.2 m.1

end Stroke

end StrayTouch
