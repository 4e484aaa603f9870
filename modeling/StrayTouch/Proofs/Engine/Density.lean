import StrayTouch.Proofs.Classifier.Ratio
import StrayTouch.Proofs.Config.Default
import StrayTouch.Proofs.Engine.Alike
import StrayTouch.Proofs.Engine.Comparison
import StrayTouch.Proofs.Engine.Defaults
import StrayTouch.Proofs.Evaluator.Order
import StrayTouch.Proofs.Gesture.Change
import StrayTouch.Proofs.Gesture.Scale
import StrayTouch.Proofs.Scalar.Real

/-!
The density of a display, in exact arithmetic. A gesture on a display that is denser by some factor,
all positions and sizes of which are greater by that factor, is decided in the same way. The same
pixels on a denser display are a shorter and slower gesture, of the same duration and shape.
Gestures are given by their logs here; each gesture that has been touched is that of a log.
-/
namespace StrayTouch

-- Sums and products in a field are those of the field.
attribute [-instance] Scalar.toAdd Scalar.toSub Scalar.toMul Scalar.toDiv

/-- The gesture that stands for a log, lifted contacts and all. -/
def Gesture.ofLog {α : Type} (dpi : α) (log : List (Gesture.Entry α)) : Gesture α :=
  ⟨dpi, .capturing, (Gesture.Log.contacts log).map fun id => (id, Gesture.Log.stroke dpi log id)⟩

namespace Gesture

variable {α : Type} [Scalar α] {dpi : α} {log : List (Entry α)}

theorem Represents.eq_ofLog {g : Gesture α} (h : g.Represents dpi log) : g = ofLog dpi log := by
  obtain ⟨gdpi, phase, contacts⟩ := g
  obtain rfl : gdpi = dpi := h.dpi_eq
  obtain rfl : phase = .capturing := h.capturing
  exact congrArg _ h.contacts_eq

/-- A gesture that has been touched stands for the log of the touches that it has taken. -/
theorem exists_follow_eq_ofLog (dpi : α) (ts : List Touch) :
    ∃ log, ((empty dpi).taken ts).map Touch.entry? = log.map some ∧
      ((empty dpi).follow ts).2 = ofLog dpi log := by
  obtain ⟨log, htaken, hr⟩ := (represents_empty dpi).follow ts
  exact ⟨log, htaken, hr.eq_ofLog⟩

omit [Scalar α] in
theorem contactIds_ofLog : (ofLog dpi log).contactIds = Log.contacts log := by
  rw [contactIds, Keyed.keys, ofLog, List.map_map]
  exact List.map_id _

omit [Scalar α] in
theorem strokes_freezeAll_ofLog :
    (ofLog dpi log).freezeAll.strokes = (Log.contacts log).map (Engine.frozenStroke dpi log) := by
  rw [strokes, freezeAll, ofLog, List.map_map, List.map_map]
  rfl

end Gesture

namespace Engine

variable {α : Type} [Scalar α]

/-- What the evaluation of a gesture replies on a display of some density. -/
def replyAt (c : Config α) (dpi : α) (log : List (Gesture.Entry α)) : Reply α :=
  ((standard { c with dpi := dpi }).step (Gesture.ofLog dpi log) .evaluate).1

/-- The strokes of a log as the classifiers see them. -/
def seenAt (dpi : α) (log : List (Gesture.Entry α)) : List (Name × Seen α) :=
  (Gesture.Log.contacts log).zip
    (Stroke.seenIn ((Gesture.Log.contacts log).map (frozenStroke dpi log)))

theorem exists_replyAt {c : Config α} {table : Variant → Evaluator α}
    (ht : ∀ v : Variant, c.evaluatorFor (.text v.feature) = .ok (table v)) (dpi : α)
    {log : List (Gesture.Entry α)} (hlog : Gesture.Log.contacts log ≠ []) :
    ∃ v, replyAt c dpi log = .verdict v ∧
      v.AccountsFor { c with dpi := dpi } (Variant.all.map (Variant.seat table))
        (seenAt dpi log) := by
  let strokes := (Gesture.Log.contacts log).map (frozenStroke dpi log)
  have hp : Member.panel { c with dpi := dpi } Variant.defaults =
      .ok (Variant.all.map (Variant.seat table)) :=
    Variant.panel_eq_seats ht Variant.nodup_all
  have hlength : (Gesture.Log.contacts log).length = strokes.length := (List.length_map _).symm
  refine ⟨_, ?_, verdictOn_accountsFor (standard { c with dpi := dpi })
    (Variant.nodup_seats table Variant.nodup_all) hlength (Gesture.Log.nodup_contacts log)⟩
  rw [replyAt, step_evaluate_reply, Gesture.contactIds_ofLog, Gesture.strokes_freezeAll_ofLog]
  simp only [standard, hp]
  rw [if_neg fun h => h rfl, if_neg (mt List.length_eq_zero_iff.mp hlog)]

end Engine

namespace Member

variable {α : Type} [Scalar α] [Scalar.Monotone α] {m : Member α} {v : Variant} {x y : Seen α}

/-- Where every reading of one stroke scores no more than that of another, no more counts for it. -/
theorem counted_le_of_read (policy : FailurePolicy) (hm : m.classifier = v.classifier)
    (hs : m.evaluator.Sound) (hc : x.stroke.count = y.stroke.count)
    (h : Concur (Option.Rel fun a b => Scalar.le (m.evaluator.scoreOf (.number a))
      (m.evaluator.scoreOf (.number b)) = true) (v.read x) (v.read y)) :
    Scalar.le (m.counted policy x) (m.counted policy y) = true := by
  unfold counted outcome
  rw [hm, Variant.answer_eq, Variant.answer_eq, hc]
  split_ifs with hshort
  · exact Scalar.Monotone.zero_le_zero
  · generalize v.read x = a, v.read y = b at h
    cases h with
    | ok h =>
      cases h with
      | none => exact Scalar.Monotone.zero_le_zero
      | some h => exact h
    | error f =>
      cases policy with
      | floor => exact Scalar.Monotone.zero_le_zero
      | ceiling => exact Scalar.Monotone.le_refl hs.ceiling_nonneg

end Member

variable {K : Type} [Field K] [LinearOrder K] [IsStrictOrderedRing K] [FloorRing K] [Plane K]
  [Plane.Lawful K]

namespace Variant

variable {x y : Seen K}

/-- The second of two strokes is read to be no faster. -/
theorem read_speed_concur {R : K → K → Prop} (h : x.stroke.Denser y.stroke)
    (hR : ∀ a b : K, a ≤ b → R a b) :
    Concur (Option.Rel R) (speed.read y) (speed.read x) := by
  have hduration : x.stroke.durationNanos = y.stroke.durationNanos := by
    rw [Stroke.durationNanos, h.points]
    rfl
  simp only [read, Stroke.averageSpeed, Stroke.durationSeconds, hduration]
  split
  · exact .ok .none
  · exact .ok (.some (hR _ _ (velocity_le h.totalLength_le _)))

omit [Plane.Lawful K] in
theorem read_endPointRatio_eq (h : x.stroke.Denser y.stroke) :
    endPointRatio.read x = endPointRatio.read y := by
  rw [read_endPointRatio, read_endPointRatio, h.endPointRatio_eq]
  exact congrArg Except.ok (if_congr h.totalLength_nonpos_iff rfl rfl)

/-- What becomes of the score of a variant where the display is denser: that of the speed does not
rise, that of the way from end to end does not fall, and nothing is said of the touch size. All
others stay. -/
def Shrunk (v : Variant) (before after : K) : Prop :=
  match v with
  | speed => after ≤ before
  | endPointLength => before ≤ after
  | touchSize => True
  | _ => after = before

theorem counted_shrunk (policy : FailurePolicy) {table : Variant → Evaluator K}
    (hs : ∀ v, (table v).Sound) (hspeed : (table speed).direction = .above)
    (hlength : (table endPointLength).direction = .below) (h : x.stroke.Denser y.stroke)
    (hp : x.SamePlace y) (v : Variant) :
    v.Shrunk ((v.seat table).counted policy x) ((v.seat table).counted policy y) := by
  have hcount : x.stroke.count = y.stroke.count := congrArg List.length h.points
  have hsame (hread : v.read x = v.read y) :
      (v.seat table).counted policy y = (v.seat table).counted policy x :=
    (Member.counted_of_outcome policy (Member.outcome_congr rfl hcount hread)).symm
  cases v with
  | durationCount =>
    refine hsame ?_
    simp only [read, Stroke.durationSeconds, Stroke.durationNanos, Stroke.count, h.points]
  | anglesVariance =>
    have hheadings : x.stroke.headings = y.stroke.headings :=
      congrArg Path.headings h.positions_eq
    refine hsame ?_
    simp only [read, Stroke.headingVariance]
    rw [hheadings]
  | speed =>
    refine Plane.scalar_le_iff.mp (Member.counted_le_of_read policy rfl (hs speed) hcount.symm ?_)
    exact read_speed_concur h fun a b hle =>
      (table speed).scoreOf_number_le (hs speed) hspeed (Plane.scalar_le_iff.mpr hle)
  | endPointLength =>
    refine Plane.scalar_le_iff.mp
      (Member.counted_le_of_read policy rfl (hs endPointLength) hcount ?_)
    refine .ok (.some ((table endPointLength).scoreOf_number_le_of_below (hs _) hlength ?_))
    exact Plane.scalar_le_iff.mpr h.endPointLength_le
  | endPointRatio => exact hsame (read_endPointRatio_eq h)
  | touchSize => trivial
  | pointerCount => exact hsame (read_pointerCount_congr hp)

omit [FloorRing K] [Plane K] [Plane.Lawful K] in
theorem shrunk_sum {v : Variant} {xs ys : List K} (h : List.Forall₂ v.Shrunk xs ys) :
    v.Shrunk xs.sum ys.sum := by
  cases v with
  | speed => exact h.flip.sum_le_sum
  | endPointLength => exact h.sum_le_sum
  | touchSize => trivial
  | _ =>
    exact congrArg List.sum (List.forall₂_eq_eq_eq ▸ h.flip)

end Variant

/-- What becomes of a verdict where the display is denser: it is on the same contacts, with scores
and totals that do what those of their variants do. -/
structure Verdict.Shrunk (v w : Verdict K) : Prop where
  contacts : w.strokeScores.map Prod.fst = v.strokeScores.map Prod.fst
  entries : ∀ (id : Name) (k : Variant),
    Option.Rel k.Shrunk (v.score? id (.text k.tag)) (w.score? id (.text k.tag))
  totals : ∀ k : Variant,
    Option.Rel k.Shrunk (Keyed.get? v.scores (.text k.tag)) (Keyed.get? w.scores (.text k.tag))

theorem Verdict.AccountsFor.shrunk {v w : Verdict K} {c d : Config K}
    {table : Variant → Evaluator K} {seen others : List (Name × Seen K)}
    (hs : ∀ v, (table v).Sound) (hspeed : (table .speed).direction = .above)
    (hlength : (table .endPointLength).direction = .below)
    (hv : v.AccountsFor c (Variant.all.map (Variant.seat table)) seen)
    (hw : w.AccountsFor d (Variant.all.map (Variant.seat table)) others)
    (hpolicy : d.failurePolicy = c.failurePolicy)
    (h : List.Forall₂ (fun s t => s.1 = t.1 ∧ s.2.stroke.Denser t.2.stroke ∧ s.2.SamePlace t.2)
      seen others) : v.Shrunk w := by
  have hkeys := Variant.nodup_seats table Variant.nodup_all
  have hseat (k : Variant) : k.seat table ∈ Variant.all.map (Variant.seat table) :=
    List.mem_map_of_mem k.mem_all
  refine ⟨?_, fun id k => ?_, fun k => ?_⟩
  · have hcontacts : List.Forall₂ Eq (seen.map Prod.fst) (others.map Prod.fst) := by
      rw [List.forall₂_map_left_iff, List.forall₂_map_right_iff]
      exact h.imp fun _ _ hst => hst.1
    rw [List.forall₂_eq_eq_eq] at hcontacts
    rw [hv.strokeScores, hw.strokeScores, List.map_map, List.map_map]
    exact hcontacts.symm
  · have hentry := Keyed.get?_forall₂
      (R := fun x y : Seen K => x.stroke.Denser y.stroke ∧ x.SamePlace y) h id
    have hbefore := hv.score?_eq hkeys (hseat k) id
    have hafter := hw.score?_eq hkeys (hseat k) id
    show Option.Rel k.Shrunk (v.score? id (k.seat table).tag) (w.score? id (k.seat table).tag)
    rw [hbefore, hafter, hpolicy]
    generalize Keyed.get? seen id = a, Keyed.get? others id = b at hentry
    cases hentry with
    | none => exact .none
    | some hst => exact .some (k.counted_shrunk c.failurePolicy hs hspeed hlength hst.1 hst.2)
  · have hbefore := hv.get?_scores hkeys (hseat k)
    have hafter := hw.get?_scores hkeys (hseat k)
    show Option.Rel k.Shrunk (Keyed.get? v.scores (k.seat table).tag)
      (Keyed.get? w.scores (k.seat table).tag)
    rw [hbefore, hafter, hpolicy, Member.total, Member.total, Plane.scalar_sum, Plane.scalar_sum]
    refine .some (Variant.shrunk_sum ?_)
    rw [List.forall₂_map_left_iff, List.forall₂_map_right_iff]
    exact h.imp fun _ _ hst => k.counted_shrunk c.failurePolicy hs hspeed hlength hst.2.1 hst.2.2

namespace Engine

omit [IsStrictOrderedRing K] [FloorRing K] [Plane K] [Plane.Lawful K] in
theorem forall₂_seenAt {d e : K} (hd : 0 < d) (hde : d ≤ e) (log : List (Gesture.Entry K)) :
    List.Forall₂ (fun s t => s.1 = t.1 ∧ s.2.stroke.Denser t.2.stroke ∧ s.2.SamePlace t.2)
      (seenAt d log) (seenAt e log) := by
  have hstrokes : List.Forall₂ Stroke.Denser
      ((Gesture.Log.contacts log).map (frozenStroke d log))
      ((Gesture.Log.contacts log).map (frozenStroke e log)) := by
    rw [List.forall₂_map_left_iff, List.forall₂_map_right_iff, List.forall₂_same]
    exact fun _ _ => ⟨rfl, hd, hde⟩
  have hseen := Stroke.forall₂_seenIn hstrokes
  rw [seenAt, seenAt]
  rw [List.forall₂_iff_get] at hseen ⊢
  obtain ⟨hlength, hget⟩ := hseen
  refine ⟨by simp only [List.length_zip, hlength], fun i hi ho => ?_⟩
  simp only [List.length_zip, lt_inf_iff] at hi ho
  simp only [List.get_eq_getElem, List.getElem_zip] at hget ⊢
  exact ⟨trivial, hget i hi.2 ho.2⟩

/-- Only inches matter, in exact arithmetic. On a display that is denser by a factor, the gesture
whose positions and sizes are greater by that factor gets the same verdict. The same pixels on a
denser display get no more for their speed, no less for the way from end to end, and as much for all
else but the touch size, as long as the table of the speed scores upwards and the one of the way
downwards. -/
theorem density_irrelevant {settings : Settings K} {c : Config K}
    (hbuild : Config.build settings = .ok c) (hc : c.Sound) (log : List (Gesture.Entry K))
    (hlog : Gesture.Log.contacts log ≠ []) :
    (∀ k dpi, 0 < k → ∃ v, replyAt c dpi log = .verdict v ∧
      replyAt c (k * dpi) (log.map (Gesture.Entry.changed fun _ => Point.scaled k)) = .verdict v) ∧
    ((∀ ev, c.evaluatorFor (.text "speed") = .ok ev → ev.direction = .above) →
      (∀ ev, c.evaluatorFor (.text "end_point_length") = .ok ev → ev.direction = .below) →
      ∀ d e, 0 < d → d < e → ∃ v w, replyAt c d log = .verdict v ∧
        replyAt c e log = .verdict w ∧ v.Shrunk w) := by
  obtain ⟨table, htable⟩ := Variant.exists_tables hbuild
  constructor
  · intro k dpi hk
    obtain ⟨v, hv, _⟩ := exists_replyAt htable dpi hlog
    refine ⟨v, hv, Eq.trans ?_ hv⟩
    have hcontacts := Gesture.Log.contacts_changed (f := fun _ => Point.scaled k) log
    refine evaluate_alike (c := { c with dpi := dpi }) (k * dpi) Variant.all rfl ?_ ?_
    · rw [Gesture.contactIds_ofLog, Gesture.contactIds_ofLog, hcontacts]
    · rw [Gesture.strokes_freezeAll_ofLog, Gesture.strokes_freezeAll_ofLog, hcontacts,
        List.forall₂_map_left_iff, List.forall₂_map_right_iff, List.forall₂_same]
      intro id _
      rw [frozenStroke, frozenStroke, Gesture.Log.pointsOf_changed]
      exact Stroke.alike_scaled hk dpi _
  · intro hspeed hlength d e hd hde
    obtain ⟨v, hv, hbefore⟩ := exists_replyAt htable d hlog
    obtain ⟨w, hw, hafter⟩ := exists_replyAt htable e hlog
    exact ⟨v, w, hv, hw, hbefore.shrunk (fun k => hc.evaluatorFor (htable k))
      (hspeed _ (htable .speed)) (hlength _ (htable .endPointLength)) hafter rfl
      (forall₂_seenAt hd hde.le log)⟩

/-- A contact that moves and is lifted, on the plane of real numbers. -/
def swipe : List (Gesture.Entry ℝ) :=
  [.point (.int 1) ⟨1, 2, 0, some 3⟩, .point (.int 1) ⟨4, 6, 5, none⟩, .up (.int 1)]

theorem swipe_on_denser_displays :
    ∃ v w, replyAt Config.unset 160 swipe = .verdict v ∧
      replyAt Config.unset (2 * 160)
        (swipe.map (Gesture.Entry.changed fun _ => Point.scaled 2)) = .verdict v ∧
      replyAt Config.unset 320 swipe = .verdict w ∧ v.Shrunk w := by
  have hcontacts : Gesture.Log.contacts swipe = [.int 1] := rfl
  have hspeed : ∀ ev, (Config.unset : Config ℝ).evaluatorFor (.text "speed") = .ok ev →
      ev.direction = .above := by
    intro ev h
    obtain rfl := Except.ok.inj h
    rfl
  have hlength : ∀ ev, (Config.unset : Config ℝ).evaluatorFor (.text "end_point_length") = .ok ev →
      ev.direction = .below := by
    intro ev h
    obtain rfl := Except.ok.inj h
    rfl
  obtain ⟨hscaled, hdenser⟩ := density_irrelevant Config.build_unset_exact Config.sound_unset_exact
    swipe (hcontacts ▸ List.cons_ne_nil _ _)
  obtain ⟨v, hv, hsame⟩ := hscaled 2 160 two_pos
  obtain ⟨v', w, hv', hw, hshrunk⟩ := hdenser hspeed hlength 160 320 (by norm_num) (by norm_num)
  rw [hv] at hv'
  obtain rfl := Reply.verdict.inj hv'
  exact ⟨v, w, hv, hsame, hw, hshrunk⟩

end Engine

end StrayTouch
