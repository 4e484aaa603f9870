import StrayTouch.Proofs.Path
import StrayTouch.Proofs.Path.Heading
import StrayTouch.Proofs.Path.Spread

/-!
Directions in a plane that is turned or mirrored. All changes of direction come along, less those of
exactly half a turn: their sense is that of the difference of the raw directions, which depends on
where the plane is cut.
-/
namespace StrayTouch.Path

-- Sums and products in a field are those of the field.
attribute [-instance] Scalar.toAdd Scalar.toSub Scalar.toMul Scalar.toDiv

open Plane AddCommGroup

variable {K : Type} [Field K] [LinearOrder K] [IsStrictOrderedRing K] [FloorRing K] [Plane K]
  [Plane.Directed K]

/-- A direction brought back between half a turn back, which it never is, and half a turn. -/
noncomputable def principal (x : K) : K :=
  toIocMod turn_pos (-pi) x

theorem isPrincipal_principal (x : K) : IsPrincipal (principal x) := by
  obtain ⟨hlow, hhigh⟩ := toIocMod_mem_Ioc (turn_pos (K := K)) (-pi) x
  exact ⟨hlow, hhigh.trans_eq neg_pi_add_turn⟩

theorem principal_modEq (x : K) : principal x ≡ x [PMOD turn] :=
  modEq_iff_eq_add_zsmul.mpr ⟨_, (toIocMod_add_toIocDiv_zsmul turn_pos (-pi) x).symm⟩

theorem principal_eq {x y : K} (hy : IsPrincipal y) (h : y ≡ x [PMOD turn]) : principal x = y :=
  (isPrincipal_principal x).eq_of_modEq hy ((principal_modEq x).trans h.symm)

theorem modEq_pi_of_abs_eq {d : K} (h : |d| = pi) : d ≡ pi [PMOD turn] := by
  rcases (abs_eq Directed.pi_pos.le).mp h with rfl | rfl
  · exact modEq_rfl
  · exact neg_pi_modEq_pi

/-- A difference of less than a whole turn that is half a turn, up to whole ones. -/
theorem abs_eq_pi_of_modEq {d : K} (hlt : |d| < turn) (h : d ≡ pi [PMOD turn]) : |d| = pi := by
  have habs : |d| ≡ pi [PMOD turn] := by
    rcases abs_choice d with hd | hd
    · rwa [hd]
    · rw [hd]
      exact h.neg.trans neg_pi_modEq_pi
  have hzero : |d| - pi ≡ 0 [PMOD turn] := by
    simpa using habs.sub_right pi
  have hlow : -pi ≤ |d| - pi := by
    rw [neg_le_sub_iff_le_add, le_add_iff_nonneg_left]
    exact abs_nonneg d
  have hhigh : |d| - pi < pi := sub_lt_iff_lt_add.mpr hlt
  have hpi : 0 < (pi : K) := Directed.pi_pos
  rcases eq_or_opposite hzero (abs_le.mpr ⟨hlow, hhigh.le⟩) (abs_zero.trans_le hpi.le) with
    heq | ⟨heq, _⟩ | ⟨_, heq⟩
  · exact sub_eq_zero.mp heq
  · exact absurd heq hhigh.ne
  · exact absurd heq hpi.ne

omit [Plane.Directed K] in
theorem IsPrincipal.abs_sub_lt {x y : K} (hx : IsPrincipal x) (hy : IsPrincipal y) :
    |y - x| < turn := by
  obtain ⟨hxlow, hxhigh⟩ := hx
  obtain ⟨hylow, hyhigh⟩ := hy
  have hturn : (turn : K) = pi + pi := rfl
  rw [abs_lt]
  constructor <;> linarith

/-- A rotation of the plane, or its mirroring at the horizontal axis. -/
inductive Motion (K : Type) where
  | rotation (angle : K)
  | mirroring

namespace Motion

/-- What becomes of a direction. -/
noncomputable def heading : Motion K → K → K
  | rotation angle, x => principal (x + angle)
  | mirroring, x => principal (-x)

/-- What becomes of the sense of a turn. -/
def sign : Motion K → K
  | rotation _ => 1
  | mirroring => -1

/-- Half a turn from one raw direction to the other keeps its sense, or changes it where the motion
changes that of all turns. -/
def KeepsSense (m : Motion K) (x y : K) : Prop :=
  |y - x| = pi → 0 < (m.heading y - m.heading x) * (m.sign * (y - x))

variable {m : Motion K} {x y : K}

omit [LinearOrder K] [IsStrictOrderedRing K] [FloorRing K] [Plane K] [Plane.Directed K] in
theorem sign_mul_self (m : Motion K) : m.sign * m.sign = 1 := by
  cases m with
  | rotation => exact one_mul 1
  | mirroring => exact neg_mul_neg 1 1 |>.trans (one_mul 1)

omit [FloorRing K] [Plane K] [Plane.Directed K] in
theorem abs_sign (m : Motion K) : |m.sign| = 1 := by
  cases m with
  | rotation => exact abs_one
  | mirroring => exact (abs_neg 1).trans abs_one

theorem isPrincipal_heading (m : Motion K) (x : K) : IsPrincipal (m.heading x) := by
  cases m <;> exact isPrincipal_principal _

omit [IsStrictOrderedRing K] [Plane.Directed K] in
theorem sign_mul_modEq (m : Motion K) (h : x ≡ y [PMOD turn]) :
    m.sign * x ≡ m.sign * y [PMOD turn] := by
  cases m with
  | rotation => simpa [sign] using h
  | mirroring => simpa [sign] using h.neg

theorem heading_sub_modEq (m : Motion K) (x y : K) :
    m.heading y - m.heading x ≡ m.sign * (y - x) [PMOD turn] := by
  cases m with
  | rotation angle =>
    have h := (principal_modEq (y + angle)).sub (principal_modEq (x + angle))
    rwa [add_sub_add_right_eq_sub, ← one_mul (y - x)] at h
  | mirroring =>
    have h := (principal_modEq (-y)).sub (principal_modEq (-x))
    rwa [neg_sub_neg, ← neg_sub y x, ← neg_one_mul (y - x)] at h

/-- A change of direction comes along with the plane. -/
theorem change_heading (hx : IsPrincipal x) (hy : IsPrincipal y) (h : m.KeepsSense x y) :
    change (m.heading y - m.heading x) = m.sign * change (y - x) := by
  obtain ⟨hmod, hle, _, _⟩ := change_spec (y - x)
  have hsize : |m.sign * change (y - x)| = |change (y - x)| := by
    rw [abs_mul, abs_sign, one_mul]
  -- Only a difference of exactly half a turn is followed as half a turn.
  have hhalf (hchange : |change (y - x)| = pi) :
      0 < (m.heading y - m.heading x) * (m.sign * change (y - x)) := by
    have hpi : y - x ≡ pi [PMOD turn] := hmod.symm.trans (modEq_pi_of_abs_eq hchange)
    have hdistance := abs_eq_pi_of_modEq (hx.abs_sub_lt hy) hpi
    rw [change_of_le hdistance.le]
    exact h hdistance
  refine change_eq_iff.mpr ⟨?_, hsize.trans_le hle, fun hforth => ?_, fun hback => ?_⟩
  · exact (m.sign_mul_modEq hmod).trans (m.heading_sub_modEq x y).symm
  · have hpos := hhalf (by rw [← hsize, hforth, abs_of_pos Directed.pi_pos])
    rw [hforth] at hpos
    exact pos_of_mul_pos_left hpos Directed.pi_pos.le
  · have hpos := hhalf (by rw [← hsize, hback, abs_neg, abs_of_pos Directed.pi_pos])
    rw [hback, mul_neg, ← neg_mul] at hpos
    exact neg_pos.mp (pos_of_mul_pos_left hpos Directed.pi_pos.le)

/-- Directions half a turn apart stay half a turn apart. -/
theorem abs_heading_sub (h : |y - x| = pi) : |m.heading y - m.heading x| = pi := by
  refine abs_eq_pi_of_modEq ((m.isPrincipal_heading x).abs_sub_lt (m.isPrincipal_heading y)) ?_
  have hsigned : |m.sign * (y - x)| = pi := by rw [abs_mul, abs_sign, one_mul, h]
  exact (m.heading_sub_modEq x y).trans (modEq_pi_of_abs_eq hsigned)

theorem change_heading_iff (hx : IsPrincipal x) (hy : IsPrincipal y) :
    change (m.heading y - m.heading x) = m.sign * change (y - x) ↔ m.KeepsSense x y := by
  refine ⟨fun h hhalf => ?_, change_heading hx hy⟩
  have hturned : |m.heading y - m.heading x| = pi := abs_heading_sub hhalf
  have hne : m.sign * (y - x) ≠ 0 := by
    rw [← abs_pos, abs_mul, abs_sign, one_mul, hhalf]
    exact Directed.pi_pos
  rw [change_of_le hturned.le, change_of_le hhalf.le] at h
  rw [h]
  exact mul_self_pos.mpr hne

end Motion

omit [IsStrictOrderedRing K] [Plane.Directed K] in
theorem unwrapFrom_map_iff {f : K → K} {k c previous shift shift' : K} {raws : List K}
    (hlast : f previous + shift' = k * (previous + shift) + c) :
    unwrapFrom (f previous) shift' (raws.map f) =
        (unwrapFrom previous shift raws).map (fun x => k * x + c) ↔
      (previous :: raws).IsChain fun x y => change (f y - f x) = k * change (y - x) := by
  -- What is carried along is `hlast`: the last direction that was followed has come along.
  induction raws generalizing previous shift shift' with
  | nil => exact iff_of_true rfl (.singleton previous)
  | cons a raws ih =>
    have hstep : f previous + shift' + change (f a - f previous) =
        k * (previous + shift + change (a - previous)) + c ↔
          change (f a - f previous) = k * change (a - previous) := by
      constructor
      · intro h
        linear_combination h - hlast
      · intro h
        linear_combination h + hlast
    rw [List.map_cons, unwrapFrom_cons, unwrapFrom_cons, List.map_cons, List.cons.injEq, hstep,
      List.isChain_cons_cons]
    refine and_congr_right fun hchange => ih ?_
    have hnext := hstep.mpr hchange
    simp only [change] at hnext
    linear_combination hnext

omit [IsStrictOrderedRing K] [Plane.Directed K] in
/-- Directions are followed along with a map exactly if all changes come along. -/
theorem unwrap_map_iff {f : K → K} {k : K} {raws : List K} :
    (∃ c, unwrap (raws.map f) = (unwrap raws).map fun x => k * x + c) ↔
      raws.IsChain fun x y => change (f y - f x) = k * change (y - x) := by
  cases raws with
  | nil => exact iff_of_true ⟨0, rfl⟩ .nil
  | cons a raws =>
    have hfrom (c : K) : unwrap ((a :: raws).map f) =
        ((unwrap (a :: raws)).map fun x => k * x + c) ↔ f a = k * a + c ∧
          unwrapFrom (f a) 0 (raws.map f) = (unwrapFrom a 0 raws).map fun x => k * x + c :=
      Iff.of_eq (List.cons.injEq ..)
    simp only [hfrom]
    constructor
    · rintro ⟨c, hfirst, hrest⟩
      exact (unwrapFrom_map_iff (by rw [add_zero, add_zero, hfirst])).mp hrest
    · intro h
      exact ⟨f a - k * a, (add_sub_cancel _ _).symm, (unwrapFrom_map_iff (by ring)).mpr h⟩

/-- Any two of the directions are the same or half a turn apart. -/
def OnOneLine (raws : List K) : Prop :=
  ∀ x ∈ raws, ∀ y ∈ raws, x = y ∨ |y - x| = pi

theorem OnOneLine.unwrap_eq {raws : List K} (h : OnOneLine raws) : unwrap raws = raws := by
  refine unwrap_eq_self (List.Pairwise.isChain (List.pairwise_of_forall_mem_list ?_))
  intro x hx y hy
  rcases h x hx y hy with rfl | hhalf
  · rw [sub_self, abs_zero]
    exact Directed.pi_pos.le
  · exact hhalf.le

namespace Motion

/-- No half turn changes its sense, or else nothing but half turns is made. -/
def KeepsTurns (m : Motion K) (raws : List K) : Prop :=
  raws.IsChain m.KeepsSense ∨ OnOneLine raws

variable {m : Motion K} {raws : List K}

theorem keepsTurns_of_no_half_turn (m : Motion K) (h : raws.IsChain fun x y => |y - x| ≠ pi) :
    m.KeepsTurns raws :=
  .inl (h.imp fun _ _ hne hhalf => absurd hhalf hne)

/-- Directions are followed along with the plane exactly if all half turns keep their sense. -/
theorem unwrap_heading_iff (hraws : ∀ x ∈ raws, IsPrincipal x) :
    (∃ c, unwrap (raws.map m.heading) = (unwrap raws).map fun x => m.sign * x + c) ↔
      raws.IsChain m.KeepsSense :=
  unwrap_map_iff.trans
    (List.IsChain.iff_of_mem_imp fun x y hx hy => change_heading_iff (hraws x hx) (hraws y hy))

theorem variance_unwrap_heading (hraws : ∀ x ∈ raws, IsPrincipal x) (h : m.KeepsTurns raws) :
    variance (unwrap (raws.map m.heading)) = variance (unwrap raws) := by
  rcases h with hsense | hline
  · obtain ⟨c, hc⟩ := (unwrap_heading_iff hraws).mpr hsense
    rw [hc]
    refine variance_map fun x _ y _ => ?_
    rw [add_sub_add_right_eq_sub, ← mul_sub, mul_mul_mul_comm, m.sign_mul_self, one_mul]
  · have hmoved : OnOneLine (raws.map m.heading) := by
      refine List.forall_mem_map.mpr fun x hx => List.forall_mem_map.mpr fun y hy => ?_
      exact (hline x hx y hy).imp (congrArg m.heading) abs_heading_sub
    rw [hmoved.unwrap_eq, hline.unwrap_eq]
    refine variance_map fun x hx y hy => ?_
    rcases hline x hx y hy with rfl | hhalf
    · rw [sub_self, sub_self]
    · rw [← abs_mul_abs_self, abs_heading_sub hhalf, ← abs_mul_abs_self (y - x), hhalf]

/-- What a map of the plane does to moves is the motion: it keeps their lengths and moves their
directions. -/
def Carries (m : Motion K) (f : K × K → K × K) : Prop :=
  ∀ v, reach (f v) = reach v ∧
    (reach v ≠ 0 → atan2 (f v).2 (f v).1 = m.heading (atan2 v.2 v.1))

theorem Carries.rawHeadings_eq {f : K × K → K × K} (hf : m.Carries f) {ps qs : List (K × K)}
    (h : Moved f ps qs) : rawHeadings qs = (rawHeadings ps).map m.heading := by
  have hmoves : moves qs = (moves ps).map f := by
    have hkept : (fun v => decide (reach v ≠ 0)) ∘ f = fun v => decide (reach v ≠ 0) :=
      funext fun v => congrArg (fun r => decide (r ≠ 0)) (hf v).1
    rw [moves_eq_stretches, moves_eq_stretches, stretches, stretches, h.segments, List.filter_map,
      hkept]
  have hraw : rawHeadings qs = (moves qs).map fun v => atan2 v.2 v.1 := rfl
  have hraw' : rawHeadings ps = (moves ps).map fun v => atan2 v.2 v.1 := rfl
  rw [hraw, hraw', hmoves, List.map_map, List.map_map]
  refine List.map_congr_left fun v hv => ?_
  rw [moves_eq_stretches, stretches, List.mem_filter] at hv
  exact (hf v).2 (of_decide_eq_true hv.2)

end Motion

end StrayTouch.Path
