import StrayTouch.Proofs.Classifier.Variant
import StrayTouch.Proofs.Engine.Breakdown

/-!
The engine with the classifiers of the library. All of them have their seats under every
configuration that has been built, and none of them fails unless a number leaves the range of the
doubles.
-/
namespace StrayTouch

variable {α : Type} [Scalar α]

namespace Variant

theorem feature_mem_defaultTables (v : Variant) : v.feature ∈ defaultTables.map Prod.fst := by
  cases v <;> simp [defaultTables, feature]

theorem mem_all (v : Variant) : v ∈ all := by
  cases v <;> decide

theorem nodup_all : all.Nodup := by
  decide

theorem nodup_tags : (all.map fun v => Key.text v.tag).Nodup := by
  decide

theorem tag_injective : Function.Injective tag := by
  intro v k h
  exact List.inj_on_of_nodup_map nodup_tags v.mem_all k.mem_all (congrArg Key.text h)

/-- A variant in its seat, with its table. -/
def seat (table : Variant → Evaluator α) (v : Variant) : Member α :=
  ⟨v.classifier, .text v.tag, table v⟩

theorem exists_tables {s : Settings α} {c : Config α} (h : Config.build s = .ok c) :
    ∃ table : Variant → Evaluator α, ∀ v, c.evaluatorFor (.text v.feature) = .ok (table v) := by
  choose table htable using fun v : Variant =>
    Config.exists_evaluatorFor_of_build h v.feature_mem_defaultTables
  exact ⟨table, htable⟩

variable {table : Variant → Evaluator α} {vs : List Variant}

theorem nodup_seats (table : Variant → Evaluator α) (hd : vs.Nodup) :
    ((vs.map (seat table)).map fun m => m.tag.key).Nodup := by
  rw [List.map_map]
  exact hd.map fun v k h => tag_injective (Key.text_injective h)

/-- Some variants in any order are seated in that order. -/
theorem panel_eq_seats {c : Config α}
    (ht : ∀ v : Variant, c.evaluatorFor (.text v.feature) = .ok (table v)) (hd : vs.Nodup) :
    Member.panel c (vs.map classifier) = .ok (vs.map (seat table)) := by
  refine Member.panel_eq_ok_iff.mpr ⟨?_, nodup_seats table hd⟩
  rw [List.forall₂_map_left_iff, List.forall₂_map_right_iff, List.forall₂_same]
  exact fun v _ => ⟨rfl, rfl, ht v⟩

/-- A configuration that has been built seats the variants, each under its own tag. -/
theorem exists_panel {s : Settings α} {c : Config α} (h : Config.build s = .ok c) :
    ∃ panel, Member.panel c defaults = .ok panel ∧
      List.Forall₂ (fun v m => m.classifier = v.classifier ∧ m.tag = .text v.tag) all panel := by
  obtain ⟨table, htable⟩ := exists_tables h
  refine ⟨_, panel_eq_seats htable nodup_all, ?_⟩
  rw [List.forall₂_map_right_iff, List.forall₂_same]
  exact fun v _ => ⟨rfl, rfl⟩

end Variant

omit [Scalar α] in
theorem Gesture.map_stroke_seen (g : Gesture α) : (g.seen.map fun x => x.2.stroke) = g.strokes := by
  rw [seen, List.map_map, strokes]
  conv_rhs => rw [← List.zipIdx_map_fst 0 g.contacts, List.map_map]
  rfl

omit [Scalar α] in
theorem Gesture.map_stroke_seen_freezeAll (g : Gesture α) (p : Phase) :
    ((g.freezeAll.withPhase p).seen.map fun x => x.2.stroke) = g.strokes.map Stroke.freeze := by
  rw [map_stroke_seen, strokes_withPhase, strokes, strokes, freezeAll, List.map_map, List.map_map]
  rfl

namespace Variant

theorem fails_eq_true_iff {m : Member Float} {v : Variant} {seen : Seen Float}
    (hm : m.classifier = v.classifier) (hs : seen.stroke.Sound) :
    m.fails seen = true ↔ v.OutOfRange seen.stroke := by
  rw [← @answer_eq_error_iff v m.evaluator seen hs]
  unfold Member.fails Member.outcome
  rw [hm, answer_eq]
  split_ifs
  · simp [Reading.toReal]
  · cases v.read seen <;> simp [Except.map, Reading.toReal]

theorem exists_score_iff {v : Variant} {ev : Evaluator Float} {seen : Seen Float}
    (hs : seen.stroke.Sound) :
    (∃ score, v.classifier.answer ev seen = .ok (.number score)) ↔
      ¬ v.OutOfRange seen.stroke := by
  rw [← @answer_eq_error_iff v ev seen hs, answer_eq]
  split_ifs
  · simp
  · cases v.read seen <;> simp [Except.map]

/-- Whether a variant fails on one of some strokes, as its gesture shows them when all contacts are
lifted. -/
theorem exists_fails_iff {m : Member Float} {v : Variant} (hm : m.classifier = v.classifier)
    {seen : List (Seen Float)} {strokes : List (Stroke Float)}
    (h : seen.map Seen.stroke = strokes.map Stroke.freeze) (hs : ∀ s ∈ strokes, s.Sound) :
    (∃ x ∈ seen, m.fails x = true) ↔ ∃ s ∈ strokes, v.OutOfRange s := by
  have hsound : ∀ x ∈ seen, x.stroke.Sound := by
    intro x hx
    have hmem : x.stroke ∈ strokes.map Stroke.freeze := h ▸ List.mem_map_of_mem hx
    obtain ⟨s, hstroke, he⟩ := List.mem_map.mp hmem
    exact he ▸ (hs s hstroke).freeze
  calc (∃ x ∈ seen, m.fails x = true)
      ↔ ∃ x ∈ seen, v.OutOfRange x.stroke :=
        exists_congr fun x => and_congr_right fun hx => fails_eq_true_iff hm (hsound x hx)
    _ ↔ ∃ t ∈ seen.map Seen.stroke, v.OutOfRange t := by simp
    _ ↔ ∃ t ∈ strokes.map Stroke.freeze, v.OutOfRange t := by rw [h]
    _ ↔ ∃ s ∈ strokes, v.OutOfRange s := by simp [outOfRange_freeze]

theorem forall_not_outOfRange_iff (s : Stroke Float) :
    (∀ v : Variant, ¬ v.OutOfRange s) ↔ s.durationNanos < durationBound ∧
      Binary64.total? (s.points.filterMap Point.size) ≠ none := by
  constructor
  · intro h
    exact ⟨Int.not_le.mp (h durationCount), h touchSize⟩
  · rintro ⟨hd, ht⟩ v
    cases v with
    | durationCount => exact Int.not_le.mpr hd
    | speed => exact Int.not_le.mpr hd
    | touchSize => exact ht
    | anglesVariance => exact id
    | endPointLength => exact id
    | endPointRatio => exact id
    | pointerCount => exact id

end Variant

namespace Engine

/-- A default classifier answers with a score for every stroke of a gesture that is in range for
it. The evaluation always delivers a verdict, and the failures in it are the classifiers that some
stroke is out of range for; there are none unless a stroke lasts too long or its sizes cannot be
added up. -/
theorem standard_fails_out_of_range {s : Settings Float} {c : Config Float}
    (hc : Config.build s = .ok c) (dpi : Float) (ts : List Touch)
    (hs : ((Gesture.empty dpi).follow ts).2.strokeCount ≠ 0) :
    let g := ((Gesture.empty dpi).follow ts).2
    (∀ (k : Variant) (ev : Evaluator Float), ∀ x ∈ g.seen,
      (∃ score, k.classifier.answer ev x.2 = .ok (.number score)) ↔ ¬ k.OutOfRange x.2.stroke) ∧
    ∃ v, ((standard c).step g .evaluate).1 = .verdict v ∧
      (∀ k : Variant, .text k.tag ∈ v.failed ↔ ∃ s ∈ g.strokes, k.OutOfRange s) ∧
      (v.failed = [] ↔ ∀ s ∈ g.strokes, s.durationNanos < durationBound ∧
        Binary64.total? (s.points.filterMap Point.size) ≠ none) := by
  intro g
  obtain ⟨entries, _, hr⟩ := (Gesture.represents_empty dpi).follow ts
  obtain ⟨panel, hp, hpanel⟩ := Variant.exists_panel hc
  have hkeys := (Member.panel_eq_ok_iff.mp hp).2
  have hv := (standard c).accountsFor_of_represents hr hkeys
  have hstrokes : ((g.freezeAll.withPhase .evaluating).seen.map Prod.snd).map Seen.stroke =
      g.strokes.map Stroke.freeze := by
    rw [List.map_map]
    exact g.map_stroke_seen_freezeAll .evaluating
  have hfails {k : Variant} {m : Member Float} (hk : m.classifier = k.classifier) :
      (∃ x ∈ (g.freezeAll.withPhase .evaluating).seen.map Prod.snd, m.fails x = true) ↔
        ∃ s ∈ g.strokes, k.OutOfRange s :=
    Variant.exists_fails_iff hk hstrokes hr.sound
  refine ⟨?_, _, congrArg Prod.fst (step_evaluate_of_panel hp hr.capturing hs), ?_, ?_⟩
  · intro k ev x hx
    refine Variant.exists_score_iff (hr.sound _ ?_)
    have hm := List.mem_map_of_mem (f := fun x : Name × Seen Float => x.2.stroke) hx
    rwa [g.map_stroke_seen] at hm
  · intro k
    obtain ⟨m, hm, hk, ht⟩ := exists_of_forall₂ hpanel.flip k.mem_all
    rw [hv.failed, ← ht, Member.mem_failedTags_iff hkeys hm, hfails hk]
  · rw [hv.failed, Member.failedTags_eq_nil_iff]
    constructor
    · intro h s hstroke
      refine (Variant.forall_not_outOfRange_iff s).mp fun k hout => ?_
      obtain ⟨m, hm, hk, _⟩ := exists_of_forall₂ hpanel.flip k.mem_all
      obtain ⟨x, hx, hfail⟩ := (hfails hk).mpr ⟨s, hstroke, hout⟩
      rw [h m hm x hx] at hfail
      cases hfail
    · intro h m hm x hx
      obtain ⟨k, _, hk, _⟩ := exists_of_forall₂ hpanel hm
      rw [← Bool.not_eq_true]
      intro hfail
      obtain ⟨s, hstroke, hout⟩ := (hfails hk).mp ⟨x, hx, hfail⟩
      exact (Variant.forall_not_outOfRange_iff s).mpr (h s hstroke) k hout

private def hold (time : Int) (size : Float) : Touch :=
  .point (.int 0) ⟨.int 1, .int 2, .int time, .atom (.float size)⟩

/-- A contact that is down for too long, and whose sizes are too large. -/
def endlessPalm : List Touch :=
  [hold 0 1e308, hold durationBound 1e308]

theorem outOfRange_endlessPalm :
    ∃ s ∈ ((Gesture.empty (160.0 : Float)).follow endlessPalm).2.strokes,
      (durationBound : Int) ≤ s.durationNanos ∧
        Binary64.total? (s.points.filterMap Point.size) = none := by
  have h : (((Gesture.empty (160.0 : Float)).follow endlessPalm).2.strokes.any fun s =>
      decide ((durationBound : Int) ≤ s.durationNanos) &&
        (Binary64.total? (s.points.filterMap Point.size)).isNone) = true := by decide +kernel
  obtain ⟨s, hs, hout⟩ := List.any_eq_true.mp h
  rw [Bool.and_eq_true, decide_eq_true_iff, Option.isNone_iff_eq_none] at hout
  exact ⟨s, hs, hout⟩

theorem standard_fails_endlessPalm :
    ∃ c v, Config.build Settings.unset = .ok c ∧
      ((standard c).step ((Gesture.empty 160.0).follow endlessPalm).2 .evaluate).1 = .verdict v ∧
      .text "DUR" ∈ v.failed ∧ .text "SPD" ∈ v.failed ∧ .text "SIZ" ∈ v.failed := by
  obtain ⟨c, hc⟩ := Config.exists_build_unset
  obtain ⟨_, v, hv, hfailed, _⟩ :=
    standard_fails_out_of_range hc 160.0 endlessPalm (by decide +kernel)
  obtain ⟨s, hs, hlong, hlarge⟩ := outOfRange_endlessPalm
  exact ⟨c, v, hc, hv, (hfailed .durationCount).mpr ⟨s, hs, hlong⟩,
    (hfailed .speed).mpr ⟨s, hs, hlong⟩, (hfailed .touchSize).mpr ⟨s, hs, hlarge⟩⟩

/-- Three of the default classifiers fail on the stroke of that contact, whatever their tables. -/
theorem answers_fail_endlessPalm :
    ∃ x ∈ ((Gesture.empty (160.0 : Float)).follow endlessPalm).2.seen, ∀ ev,
      (∃ f, Variant.durationCount.classifier.answer ev x.2 = .error f) ∧
      (∃ f, Variant.speed.classifier.answer ev x.2 = .error f) ∧
      ∃ f, Variant.touchSize.classifier.answer ev x.2 = .error f := by
  obtain ⟨entries, _, hr⟩ := (Gesture.represents_empty (160.0 : Float)).follow endlessPalm
  obtain ⟨s, hs, hlong, hlarge⟩ := outOfRange_endlessPalm
  have hsound := hr.sound s hs
  rw [← Gesture.map_stroke_seen] at hs
  obtain ⟨x, hx, rfl⟩ := List.mem_map.mp hs
  exact ⟨x, hx, fun ev => ⟨(Variant.answer_eq_error_iff hsound).mpr hlong,
    (Variant.answer_eq_error_iff hsound).mpr hlong,
    (Variant.answer_eq_error_iff hsound).mpr hlarge⟩⟩

end Engine

end StrayTouch
