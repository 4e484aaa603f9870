import StrayTouch.Proofs.Classifier.Heading
import StrayTouch.Proofs.Path.Motion

/-!
Strokes that are turned or mirrored. What is scored by the variance of the direction does not tell
them from what they were, unless they turn back on themselves exactly: the sense of such a turn
depends on where the directions are cut, and the variance may depend on it.
-/
namespace StrayTouch

-- Sums and products in a field are those of the field.
attribute [-instance] Scalar.toAdd Scalar.toSub Scalar.toMul Scalar.toDiv

open StrayTouch.Path

namespace Path.Motion

/-- A motion of the plane of the real numbers. -/
noncomputable def displace : Motion ℝ → ℝ × ℝ → ℝ × ℝ
  | rotation angle, v =>
    (Real.cos angle * v.1 - Real.sin angle * v.2, Real.sin angle * v.1 + Real.cos angle * v.2)
  | mirroring, v => (v.1, -v.2)

theorem displace_sub (m : Motion ℝ) (v w : ℝ × ℝ) :
    ((m.displace w).1 - (m.displace v).1, (m.displace w).2 - (m.displace v).2) =
      m.displace (w.1 - v.1, w.2 - v.2) := by
  cases m with
  | rotation angle => exact Prod.ext (by simp only [displace]; ring) (by simp only [displace]; ring)
  | mirroring => exact Prod.ext rfl (by simp only [displace]; ring)

theorem reach_displace (m : Motion ℝ) (v : ℝ × ℝ) : reach (m.displace v) = reach v := by
  have hreach (w : ℝ × ℝ) : reach w = √(w.1 ^ 2 + w.2 ^ 2) := rfl
  rw [hreach, hreach]
  congr 1
  cases m with
  | rotation angle =>
    simp only [displace]
    linear_combination (v.1 ^ 2 + v.2 ^ 2) * Real.sin_sq_add_cos_sq angle
  | mirroring =>
    simp only [displace]
    ring

/-- Angles that are the same angle are the same up to whole turns. -/
theorem modEq_of_angle_eq {x y : ℝ} (h : (x : Real.Angle) = y) : x ≡ y [PMOD turn] := by
  obtain ⟨k, hk⟩ := Real.Angle.angle_eq_iff_two_pi_dvd_sub.mp h
  refine AddCommGroup.modEq_iff_eq_add_zsmul.mpr ⟨-k, ?_⟩
  have hturn : (turn : ℝ) = 2 * Real.pi := (two_mul Real.pi).symm
  rw [zsmul_eq_mul, hturn]
  push_cast
  linear_combination -hk

theorem carries_displace (m : Motion ℝ) : m.Carries m.displace := by
  refine fun v => ⟨m.reach_displace v, fun hv => ?_⟩
  have hz : (⟨v.1, v.2⟩ : ℂ) ≠ 0 := by
    intro hz
    have hx : v.1 = 0 := congrArg Complex.re hz
    have hy : v.2 = 0 := congrArg Complex.im hz
    refine hv ?_
    show √(v.1 ^ 2 + v.2 ^ 2) = 0
    norm_num [hx, hy]
  cases m with
  | rotation angle =>
    refine (principal_eq (isPrincipal_atan2 _ _) (modEq_of_angle_eq ?_)).symm
    have hturned : (⟨Real.cos angle * v.1 - Real.sin angle * v.2,
        Real.sin angle * v.1 + Real.cos angle * v.2⟩ : ℂ) =
        Complex.exp (angle * Complex.I) * ⟨v.1, v.2⟩ := by
      apply Complex.ext
      · rw [Complex.mul_re, Complex.exp_ofReal_mul_I_re, Complex.exp_ofReal_mul_I_im]
      · rw [Complex.mul_im, Complex.exp_ofReal_mul_I_re, Complex.exp_ofReal_mul_I_im, add_comm]
    show (Complex.arg ⟨Real.cos angle * v.1 - Real.sin angle * v.2,
        Real.sin angle * v.1 + Real.cos angle * v.2⟩ : Real.Angle) =
      ((Complex.arg ⟨v.1, v.2⟩ + angle : ℝ) : Real.Angle)
    rw [hturned, Complex.arg_mul_coe_angle (Complex.exp_ne_zero _) hz, Complex.arg_exp_mul_I,
      Real.Angle.coe_toIocMod, Real.Angle.coe_add, add_comm]
  | mirroring =>
    refine (principal_eq (isPrincipal_atan2 _ _) (modEq_of_angle_eq ?_)).symm
    rw [Real.Angle.coe_neg]
    exact Complex.arg_conj_coe_angle ⟨v.1, v.2⟩

end Path.Motion

/-- A stroke in a plane that has been moved. -/
noncomputable def Stroke.displaced (m : Motion ℝ) (s : Stroke ℝ) : Stroke ℝ :=
  ⟨s.dpi, s.points.map fun p =>
    ⟨(m.displace p.position).1, (m.displace p.position).2, p.time, p.size⟩, s.frozen⟩

theorem Stroke.moved_displaced (m : Motion ℝ) (s : Stroke ℝ) :
    Moved m.displace s.positions (s.displaced m).positions := by
  have hpositions : (s.displaced m).positions = s.points.map fun p => m.displace p.position :=
    List.map_map
  rw [hpositions]
  exact moved_map fun p _ q _ => m.displace_sub p.position q.position

/-- A stroke to the right, back to where it came from, and up. -/
noncomputable def returning : Stroke ℝ :=
  ⟨1, thereAndBack.map fun p => ⟨p.1, p.2, 0, none⟩, true⟩

theorem rawHeadings_returning : rawHeadings returning.positions = [0, Real.pi, Real.pi / 2] := by
  have hpositions : returning.positions = thereAndBack :=
    List.map_map.trans (List.map_id thereAndBack)
  have hraw : rawHeadings thereAndBack = (moves thereAndBack).map fun step =>
    Complex.arg ⟨step.1, step.2⟩ := rfl
  have hback : (⟨-1, 0⟩ : ℂ) = -1 := by apply Complex.ext <;> simp
  rw [hpositions, hraw, moves_eq_stretches, stretches_thereAndBack, List.map_cons, List.map_cons,
    List.map_singleton, hback, Complex.arg_neg_one]
  exact congrArg₂ (fun x y => [x, Real.pi, y]) Complex.arg_one Complex.arg_I

theorem principal_of_eq_add {x y : ℝ} (k : ℤ) (hlow : -Real.pi < y) (hhigh : y ≤ Real.pi)
    (h : x = y + k * (2 * Real.pi)) : principal x = y := by
  refine principal_eq ⟨hlow, hhigh⟩ (AddCommGroup.modEq_iff_eq_add_zsmul.mpr ⟨k, ?_⟩)
  rw [h, zsmul_eq_mul, two_mul]
  rfl

/-- A table upwards with one threshold, at what the stroke that returns has. -/
noncomputable def swerving : Evaluator ℝ :=
  ⟨[(returning.headingVariance, 1)], .above⟩

/-- One radian back. -/
noncomputable def slightTurn : Motion ℝ :=
  .rotation (-1)

section Exact

variable {K : Type} [Field K] [LinearOrder K] [IsStrictOrderedRing K] [FloorRing K] [Plane K]
  [Plane.Principal K]

/-- In a plane that is turned by any angle or mirrored, directions are followed along exactly if each
half turn keeps its sense, as where none is made. Their variance is kept then, and also where nothing
but half turns is made. A stroke that comes along has the same variance of its direction, and is
scored alike by every table. -/
theorem Stroke.headingVariance_of_motion (m : Motion K) :
    (∀ raws : List K, (raws.IsChain fun x y => |y - x| ≠ Plane.pi) → m.KeepsTurns raws) ∧
    (∀ raws : List K, (∀ x ∈ raws, IsPrincipal x) →
      ((∃ c, unwrap (raws.map m.heading) = (unwrap raws).map fun x => m.sign * x + c) ↔
        raws.IsChain m.KeepsSense) ∧
      (m.KeepsTurns raws → variance (unwrap (raws.map m.heading)) = variance (unwrap raws))) ∧
    ∀ (f : K × K → K × K) (s t : Stroke K), m.Carries f → Moved f s.positions t.positions →
      m.KeepsTurns (rawHeadings s.positions) →
        t.headingVariance = s.headingVariance ∧
          ∀ (ev : Evaluator K) (x y : Seen K), x.stroke = s → y.stroke = t →
            Variant.anglesVariance.classifier.answer ev y =
              Variant.anglesVariance.classifier.answer ev x := by
  refine ⟨fun raws => m.keepsTurns_of_no_half_turn, fun raws hraws =>
    ⟨Motion.unwrap_heading_iff hraws, Motion.variance_unwrap_heading hraws⟩,
    fun f s t hf hmoved hturns => ?_⟩
  have hraw : rawHeadings t.positions = (rawHeadings s.positions).map m.heading :=
    hf.rawHeadings_eq hmoved
  have hheadings : t.headings = unwrap ((rawHeadings s.positions).map m.heading) :=
    congrArg unwrap hraw
  have hvariance : t.headingVariance = s.headingVariance := by
    rw [headingVariance, hheadings]
    exact Motion.variance_unwrap_heading (fun x hx => isPrincipal_of_mem_rawHeadings hx) hturns
  have hlength : t.headings.length = s.headings.length := by
    rw [hheadings, length_unwrap, List.length_map]
    exact (length_unwrap _).symm
  refine ⟨hvariance, ?_⟩
  rintro ev x y rfl rfl
  rw [Variant.answer_anglesVariance, Variant.answer_anglesVariance, hlength, hvariance]

end Exact

/-- In a plane that is turned by one radian, the way back is half a turn to the same side. -/
theorem headingVariance_returning_turned :
    slightTurn.KeepsTurns (rawHeadings returning.positions) ∧
      (returning.displaced slightTurn).headingVariance = returning.headingVariance ∧
      Variant.anglesVariance.classifier.answer swerving
          ⟨returning.displaced slightTurn, 0, [returning.displaced slightTurn]⟩ =
        Variant.anglesVariance.classifier.answer swerving ⟨returning, 0, [returning]⟩ := by
  have hpi := Real.pi_pos
  have hone : 1 < Real.pi := one_lt_two.trans_le Real.two_le_pi
  have hright : slightTurn.heading 0 = -1 :=
    principal_of_eq_add 0 (by linarith) (by linarith) (by push_cast; ring)
  have hback : slightTurn.heading Real.pi = Real.pi - 1 :=
    principal_of_eq_add 0 (by linarith) (by linarith) (by push_cast; ring)
  have hsign : slightTurn.sign = 1 := rfl
  have hturns : slightTurn.KeepsTurns (rawHeadings returning.positions) := by
    rw [rawHeadings_returning]
    refine .inl (.cons_cons (fun _ => ?_) (.cons_cons (fun hhalf => ?_) (.singleton _)))
    · rw [hright, hback, hsign]
      nlinarith
    · have hquarter : |Real.pi / 2 - Real.pi| = Real.pi / 2 := by
        rw [abs_sub_comm, sub_half, abs_of_pos (half_pos hpi)]
      exact absurd (hquarter.symm.trans hhalf) (half_lt_self hpi).ne
  obtain ⟨_, _, hstrokes⟩ := Stroke.headingVariance_of_motion slightTurn
  obtain ⟨hvariance, hanswers⟩ := hstrokes _ returning _ (Motion.carries_displace _)
    (Stroke.moved_displaced _ returning) hturns
  exact ⟨hturns, hvariance, hanswers swerving _ _ rfl rfl⟩

theorem unwrap_three (x y z : ℝ) :
    unwrap [x, y, z] = [x, x + change (y - x), x + change (y - x) + change (z - y)] := by
  have hfrom : unwrap [x, y, z] = x :: unwrapFrom x 0 [y, z] := rfl
  have hlast : y + (0 + correction (y - x)) = x + change (y - x) := by
    rw [change]
    ring
  rw [hfrom, unwrapFrom_cons, unwrapFrom_cons, hlast, add_zero]
  rfl

theorem variance_three (x y z : ℝ) :
    variance [x, y, z] = (x ^ 2 + y ^ 2 + z ^ 2) / 3 - ((x + y + z) / 3) ^ 2 := by
  have hlength : 2 ≤ [x, y, z].length := Nat.le_succ 2
  rw [variance_eq_div hlength, deviation, mean_eq_div]
  simp only [List.map_cons, List.map_nil, List.sum_cons, List.sum_nil, List.length_cons,
    List.length_nil]
  push_cast
  ring

theorem change_of_eq_add {d x : ℝ} (k : ℤ) (hlow : -Real.pi < x) (hhigh : x < Real.pi)
    (h : d = x + k * (2 * Real.pi)) : change d = x := by
  refine change_eq_iff.mpr ⟨AddCommGroup.modEq_iff_eq_add_zsmul.mpr ⟨k, ?_⟩,
    abs_le.mpr ⟨hlow.le, hhigh.le⟩, fun hx => absurd hx hhigh.ne, fun hx => absurd hx hlow.ne'⟩
  rw [h, zsmul_eq_mul, two_mul]
  rfl

theorem variance_returning :
    variance (unwrap [0, Real.pi, Real.pi / 2]) = Real.pi ^ 2 / 6 := by
  have hpi := Real.pi_pos
  have hback : change (Real.pi - 0) = Real.pi :=
    change_of_le ((congrArg abs (sub_zero Real.pi)).trans (abs_of_pos hpi)).le |>.trans (sub_zero _)
  have hup : change (Real.pi / 2 - Real.pi) = -(Real.pi / 2) :=
    change_of_eq_add 0 (by linarith) (by linarith) (by push_cast; ring)
  rw [unwrap_three, hback, hup, variance_three]
  ring

theorem variance_returning_rotated :
    variance (unwrap ([0, Real.pi, Real.pi / 2].map (Motion.rotation (Real.pi / 2)).heading)) =
      7 * Real.pi ^ 2 / 18 := by
  have hpi := Real.pi_pos
  have hraw : [0, Real.pi, Real.pi / 2].map (Motion.rotation (Real.pi / 2)).heading =
      [Real.pi / 2, -(Real.pi / 2), Real.pi] := by
    have hright : (Motion.rotation (Real.pi / 2)).heading 0 = Real.pi / 2 :=
      principal_of_eq_add 0 (by linarith) (by linarith) (by push_cast; ring)
    have hback : (Motion.rotation (Real.pi / 2)).heading Real.pi = -(Real.pi / 2) :=
      principal_of_eq_add 1 (by linarith) (by linarith) (by push_cast; ring)
    have hup : (Motion.rotation (Real.pi / 2)).heading (Real.pi / 2) = Real.pi :=
      principal_of_eq_add 0 (by linarith) (by linarith) (by push_cast; ring)
    rw [List.map_cons, List.map_cons, List.map_singleton, hright, hback, hup]
  have hback : change (-(Real.pi / 2) - Real.pi / 2) = -Real.pi := by
    rw [← neg_add', add_halves]
    exact change_of_le ((abs_neg Real.pi).trans (abs_of_pos hpi)).le
  have hup : change (Real.pi - -(Real.pi / 2)) = -(Real.pi / 2) :=
    change_of_eq_add 1 (by linarith) (by linarith) (by push_cast; ring)
  rw [hraw, unwrap_three, hback, hup, variance_three]
  ring

theorem variance_returning_mirrored :
    variance (unwrap ([0, Real.pi, Real.pi / 2].map Motion.mirroring.heading)) =
      7 * Real.pi ^ 2 / 18 := by
  have hpi := Real.pi_pos
  have hraw : [0, Real.pi, Real.pi / 2].map Motion.mirroring.heading =
      [0, Real.pi, -(Real.pi / 2)] := by
    have hright : Motion.mirroring.heading (0 : ℝ) = 0 :=
      principal_of_eq_add 0 (by linarith) hpi.le (by push_cast; ring)
    have hback : Motion.mirroring.heading Real.pi = Real.pi :=
      principal_of_eq_add (-1) (by linarith) le_rfl (by push_cast; ring)
    have hup : Motion.mirroring.heading (Real.pi / 2) = -(Real.pi / 2) :=
      principal_of_eq_add 0 (by linarith) (by linarith) (by push_cast; ring)
    rw [List.map_cons, List.map_cons, List.map_singleton, hright, hback, hup]
  have hback : change (Real.pi - 0) = Real.pi :=
    change_of_le ((congrArg abs (sub_zero Real.pi)).trans (abs_of_pos hpi)).le |>.trans (sub_zero _)
  have hup : change (-(Real.pi / 2) - Real.pi) = Real.pi / 2 :=
    change_of_eq_add (-1) (by linarith) (by linarith) (by push_cast; ring)
  rw [hraw, unwrap_three, hback, hup, variance_three]
  ring

theorem scoreOf_swerving {x : ℝ} (h : returning.headingVariance < x) :
    swerving.scoreOf (.number x) = 1 := by
  have hcrossed : swerving.crossed (.number x) = [(returning.headingVariance, 1)] :=
    List.takeWhile_cons_of_pos (decide_eq_true h)
  rw [Evaluator.scoreOf, hcrossed]
  exact zero_add 1

theorem answer_swerving {s : Stroke ℝ} (hlong : 2 ≤ (rawHeadings s.positions).length) :
    Variant.anglesVariance.classifier.answer swerving ⟨s, 0, [s]⟩ =
      .ok (.number (swerving.scoreOf (.number s.headingVariance))) := by
  have hlength : s.headings.length = (rawHeadings s.positions).length := length_unwrap _
  rw [Variant.answer_anglesVariance, hlength, if_neg (Nat.not_lt.mpr hlong)]

/-- In a plane turned by a quarter or mirrored, the way back is half a turn to the other side, and
the variance is another one. -/
theorem headingVariance_returning_sees_heading :
    (∀ x ∈ [0, Real.pi, Real.pi / 2], IsPrincipal x) ∧
      ∀ m ∈ [Motion.rotation (Real.pi / 2), .mirroring],
        variance (unwrap ([0, Real.pi, Real.pi / 2].map m.heading)) ≠
          variance (unwrap [0, Real.pi, Real.pi / 2]) ∧
        Variant.anglesVariance.classifier.answer swerving
            ⟨returning.displaced m, 0, [returning.displaced m]⟩ ≠
          Variant.anglesVariance.classifier.answer swerving ⟨returning, 0, [returning]⟩ := by
  have hmore : variance (unwrap [0, Real.pi, Real.pi / 2]) < 7 * Real.pi ^ 2 / 18 := by
    have hsquare := sq_pos_of_pos Real.pi_pos
    rw [variance_returning]
    linarith
  have hbefore : returning.headingVariance = variance (unwrap [0, Real.pi, Real.pi / 2]) :=
    congrArg (fun raws => variance (unwrap raws)) rawHeadings_returning
  have hfloor : swerving.scoreOf (.number returning.headingVariance) = 0 :=
    Evaluator.scoreOf_eq_floor (List.forall_mem_singleton.mpr (decide_eq_false (lt_irrefl _)))
  refine ⟨?_, fun m hm => ?_⟩
  · rw [← rawHeadings_returning]
    exact fun x hx => Stroke.isPrincipal_of_mem_rawHeadings hx
  · have hmoved : variance (unwrap ([0, Real.pi, Real.pi / 2].map m.heading)) =
        7 * Real.pi ^ 2 / 18 := by
      rcases List.mem_cons.mp hm with rfl | hm
      · exact variance_returning_rotated
      · rw [List.mem_singleton.mp hm]
        exact variance_returning_mirrored
    have hraw : rawHeadings (returning.displaced m).positions =
        [0, Real.pi, Real.pi / 2].map m.heading := by
      rw [m.carries_displace.rawHeadings_eq (Stroke.moved_displaced m returning),
        rawHeadings_returning]
    have hafter : (returning.displaced m).headingVariance = 7 * Real.pi ^ 2 / 18 :=
      (congrArg (fun raws => variance (unwrap raws)) hraw).trans hmoved
    have hcrosses : returning.headingVariance < (returning.displaced m).headingVariance := by
      rw [hbefore, hafter]
      exact hmore
    rw [answer_swerving (hraw ▸ Nat.le_succ 2), answer_swerving (rawHeadings_returning ▸ Nat.le_succ 2),
      scoreOf_swerving hcrosses, hfloor, hmoved]
    exact ⟨hmore.ne', fun h => one_ne_zero (Reading.number.inj (Except.ok.inj h))⟩

end StrayTouch
