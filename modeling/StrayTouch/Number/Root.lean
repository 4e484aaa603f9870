import StrayTouch.Number.Binary64

/-!
Square roots of naturals, and from them the hypotenuse of two doubles, rounded once.
-/
namespace StrayTouch

def wholeRoot (n : Nat) : Nat :=
  if h : n = 0 then 0 else
  let r := 2 * wholeRoot (n / 4)
  if (r + 1) * (r + 1) ≤ n then r + 1 else r
termination_by n
decreasing_by omega

theorem wholeRoot_bounds (n : Nat) :
    wholeRoot n * wholeRoot n ≤ n ∧ n < (wholeRoot n + 1) * (wholeRoot n + 1) := by
  induction n using Nat.strongRecOn with
  | ind n ih =>
    rw [wholeRoot]
    split
    · next h => subst h; simp
    · next h =>
      obtain ⟨low, high⟩ := ih (n / 4) (by omega)
      generalize wholeRoot (n / 4) = r at low high ⊢
      have below : 4 * (r * r) ≤ n := by omega
      have above : n < 4 * ((r + 1) * (r + 1)) := by omega
      dsimp only
      split
      · next fits =>
        refine ⟨fits, ?_⟩
        grind
      · next fits =>
        refine ⟨?_, by omega⟩
        grind

namespace Binary64

/-- The double nearest to `√n * 2 ^ e`. The root is taken with at least sixty bits, and an odd
last bit stands for all that follows them. -/
def rootScaled? (n : Nat) (e : Int) : Option Float :=
  let extra := (120 - n.log2) / 2 + 1
  let widened := n * twoTo (2 * extra)
  let root := wholeRoot widened
  let sticky := if root * root == widened then 2 * root else 2 * root + 1
  scaled? sticky (e - extra - 1)

/-- The length of the vector `(x, y)`, rounded once. An infinite side wins over one that is no
number. -/
def hypotenuse (x y : Float) : Float :=
  match form x, form y with
  | .infinite _, _ => infinity
  | _, .infinite _ => infinity
  | .finite a, .finite b =>
    let e := min a.exponent b.exponent
    let side := (a.signedAt e).natAbs
    let other := (b.signedAt e).natAbs
    (rootScaled? (side * side + other * other) e).getD infinity
  | _, _ => notANumber

end Binary64

end StrayTouch
