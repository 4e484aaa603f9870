import StrayTouch.Proofs.Config
import StrayTouch.Proofs.Number.Addition
import StrayTouch.Proofs.Scalar.Plane

/-!
The configuration of settings that are all left out. It is there in exact arithmetic as it is in
doubles, with the same tables.
-/
namespace StrayTouch

variable {α : Type} [Scalar α]

/-- A default table with its numbers read. -/
def defaultTable (t : String × Direction × List (Float × Nat)) : Evaluator α :=
  ⟨t.2.2.map fun row => (Scalar.ofFloat row.1, Scalar.ofNat row.2), t.2.1⟩

namespace Config

def unset : Config α where
  dpi := Scalar.ofFloat defaultDpi
  rejectThreshold := Scalar.ofFloat defaultRejectThreshold
  tiePolicy := .reject
  failurePolicy := .floor
  tables := defaultTables.map fun t => (.text t.1, defaultTable t)

theorem build_unset (hdpi : Scalar.isFinite (Scalar.ofFloat defaultDpi : α) = true)
    (hpositive : Scalar.lt Scalar.zero (Scalar.ofFloat defaultDpi : α) = true)
    (hthreshold : Scalar.isFinite (Scalar.ofFloat defaultRejectThreshold : α) = true) :
    build (Settings.unset (α := α)) = .ok unset := by
  refine build_eq_ok_iff.mpr ⟨?_, [], rfl, rfl⟩
  exact ⟨rfl, rfl, rfl, rfl, hdpi, hpositive, hthreshold⟩

variable {K : Type} [Field K] [LinearOrder K] [IsStrictOrderedRing K] [FloorRing K] [Plane K]

/-- Finite doubles keep their order as the numbers that they are. -/
theorem ofFloat_lt {x y : Float} (hx : Scalar.isFinite x = true) (hy : Scalar.isFinite y = true)
    (h : Scalar.lt x y = true) :
    Scalar.lt (Scalar.ofFloat x : K) (Scalar.ofFloat y) = true := by
  obtain ⟨p, hp⟩ := (isFinite_iff x).mp hx
  obtain ⟨q, hq⟩ := (isFinite_iff y).mp hy
  have hlt : (Binary64.exact x).lt (Binary64.exact y) = true := h
  have hxp : (Scalar.ofFloat x : K) = p := by
    show Plane.ofFloat x = _
    rw [Plane.ofFloat, hp]
  have hyq : (Scalar.ofFloat y : K) = q := by
    show Plane.ofFloat y = _
    rw [Plane.ofFloat, hq]
  rw [hp, hq] at hlt
  rw [hxp, hyq, Plane.scalar_lt_iff, Rat.cast_lt]
  exact of_decide_eq_true hlt

theorem follows_defaultTables : ∀ t ∈ defaultTables, t.2.2.IsChain fun row next =>
    Scalar.isFinite row.1 = true ∧ Scalar.isFinite next.1 = true ∧
      t.2.1.follows row.1 next.1 = true := by
  decide +kernel

theorem sound_defaultTable {t : String × Direction × List (Float × Nat)} (h : t ∈ defaultTables) :
    (defaultTable t : Evaluator K).Sound where
  finite := fun _ _ => ⟨rfl, rfl⟩
  increments := by
    refine List.forall_mem_map.mpr fun row _ => ?_
    exact decide_eq_false (not_lt.mpr (Nat.cast_nonneg row.2))
  ordered := by
    rw [defaultTable, List.isChain_map]
    refine (follows_defaultTables t h).imp fun row next hrow => ?_
    obtain ⟨hx, hy, hfollows⟩ := hrow
    cases hd : t.2.1 with
    | above =>
      rw [hd] at hfollows
      exact ofFloat_lt hx hy hfollows
    | below =>
      rw [hd] at hfollows
      exact ofFloat_lt hy hx hfollows

theorem zero_lt_defaultDpi : Scalar.lt Scalar.zero (Scalar.ofFloat defaultDpi : K) = true := by
  have hzero : (Scalar.ofFloat (Scalar.zero : Float) : K) = Scalar.zero := by
    show Plane.ofFloat _ = _
    rw [Plane.ofFloat, Binary64.exact_zero]
    exact Rat.cast_zero
  rw [← hzero]
  exact ofFloat_lt (by decide +kernel) (by decide +kernel) (by decide +kernel)

theorem build_unset_exact : build (Settings.unset (α := K)) = .ok unset :=
  build_unset rfl zero_lt_defaultDpi rfl

theorem sound_unset_exact : (unset : Config K).Sound where
  dpi_finite := rfl
  dpi_positive := zero_lt_defaultDpi
  threshold_finite := rfl
  tables := List.forall_mem_map.mpr fun _ ht => sound_defaultTable ht

end Config

end StrayTouch
