import StrayTouch.Proofs.Engine.Contact
import StrayTouch.Proofs.Evaluator.Bounds
import StrayTouch.Proofs.Number.Whole

/-!
The contacts of a gesture are counted once. The count of contacts is a feature of the whole gesture,
which is scored stroke by stroke: the first contact takes the score of it, and every other contact
takes the floor.
-/
namespace StrayTouch

variable {α : Type}

/-- Among strokes of which none but the first is answered for, that answer stands alone. -/
theorem Stroke.map_seenIn_of_first {β : Type} {f : Seen α → β} {strokes : List (Stroke α)} {x y : β}
    (hne : strokes ≠ [])
    (hfirst : ∀ seen ∈ seenIn strokes, seen.isFirst = true → f seen = x)
    (hlater : ∀ seen ∈ seenIn strokes, seen.isFirst = false → f seen = y) :
    (seenIn strokes).map f = x :: List.replicate (strokes.length - 1) y := by
  apply List.ext_getElem
  · rw [List.length_map, length_seenIn, List.length_cons, List.length_replicate]
    have := List.length_pos_of_ne_nil hne
    omega
  · intro place hi hj
    have hplace : place < (seenIn strokes).length := by rwa [List.length_map] at hi
    have hmem := List.getElem_mem hplace
    rw [List.getElem_map]
    cases place with
    | zero =>
      rw [List.getElem_cons_zero]
      exact hfirst _ hmem (by simp [seenIn, Seen.isFirst])
    | succ place =>
      rw [List.getElem_cons_succ, List.getElem_replicate]
      exact hlater _ hmem (by simp [seenIn, Seen.isFirst])

variable [Scalar α]

theorem Variant.answer_pointerCount_of_later {x : Seen α} (h : x.isFirst = false)
    (ev : Evaluator α) : pointerCount.classifier.answer ev x = .ok (.number ev.floor) := by
  rw [answer_eq]
  simp only [read, h, Bool.false_eq_true, ↓reduceIte, Except.map, Option.elim, ite_self]

theorem Member.counted_pointerCount_of_later (policy : FailurePolicy) {m : Member α}
    (hm : m.classifier = Variant.pointerCount.classifier) {x : Seen α} (h : x.isFirst = false) :
    m.counted policy x = m.evaluator.floor := by
  unfold counted outcome
  rw [hm, Variant.answer_pointerCount_of_later h]
  rfl

/-- A member that counts contacts scores their number at the first stroke, and the floor at all
others. -/
theorem Member.map_counted_pointerCount (policy : FailurePolicy) {m : Member α}
    (hm : m.classifier = Variant.pointerCount.classifier) {strokes : List (Stroke α)}
    (hne : strokes ≠ []) (hs : ∀ s ∈ strokes, s.points ≠ []) :
    (Stroke.seenIn strokes).map (m.counted policy) =
      m.evaluator.scoreOf (.number (Scalar.ofNat (strokes.length - 1))) ::
        List.replicate (strokes.length - 1) m.evaluator.floor := by
  refine Stroke.map_seenIn_of_first hne (fun seen hseen h => ?_)
    (fun seen _ h => counted_pointerCount_of_later policy hm h)
  obtain ⟨stroke, hstroke, rfl⟩ := List.mem_map.mp hseen
  have hpoints : stroke.1.points ≠ [] := hs _ (List.fst_mem_of_mem_zipIdx hstroke)
  rw [counted_pointerCount policy hm h, if_neg]
  exact Nat.not_lt.mpr (List.length_pos_of_ne_nil hpoints)

namespace Evaluator

variable {ev : Evaluator Float}

theorem Sound.unsigned_scoreOf (h : ev.Sound) (m : Measure Float) :
    (Binary64.form (ev.scoreOf m)).Unsigned :=
  Binary64.unsigned_sum fun x hx =>
    h.nonneg x (((List.takeWhile_sublist _).map Prod.snd).subset hx)

/-- A count is scored as the whole number that it is, as long as it is one as a double. -/
theorem scoreOf_ofNat (ev : Evaluator Float) {n : ℕ} (hn : n < 2 ^ 53) :
    ev.scoreOf (.number (Scalar.ofNat n)) = ev.scoreOf (.whole n) := by
  have hexact : (Measure.number (Scalar.ofNat n : Float)).exact = (Measure.whole n).exact :=
    Binary64.exact_ofNat hn
  simp only [scoreOf, crossed, Measure.crosses_eq_passes, hexact]

end Evaluator

namespace Gesture

omit [Scalar α] in
theorem map_snd_seen (g : Gesture α) : g.seen.map Prod.snd = Stroke.seenIn g.strokes := by
  rw [seen_eq_zip, List.map_snd_zip]
  simp [Stroke.length_seenIn, strokes, contactIds, Keyed.keys]

variable {g : Gesture α} {dpi : α} {log : List (Entry α)}

theorem Represents.points_ne_nil_freezeAll (h : g.Represents dpi log) :
    ∀ s ∈ g.freezeAll.strokes, s.points ≠ [] := by
  intro s hs
  obtain ⟨frozen, hfrozen, rfl⟩ := List.mem_map.mp hs
  obtain ⟨contact, hcontact, rfl⟩ := List.mem_map.mp hfrozen
  exact (h.sound _ (List.mem_map_of_mem hcontact)).points_ne_nil

theorem Represents.length_strokes_freezeAll (h : g.Represents dpi log) :
    g.freezeAll.strokes.length = (Log.contacts log).length := by
  rw [Engine.strokes_freezeAll h, List.length_map]

theorem Represents.strokeCount_eq (h : g.Represents dpi log) :
    g.strokeCount = (Log.contacts log).length := by
  rw [strokeCount, h.contacts_eq, List.length_map]

/-- What a member that counts contacts is given in a gesture that is evaluated. -/
theorem Represents.counted_pointerCount (h : g.Represents dpi log) (hs : g.strokeCount ≠ 0)
    (policy : FailurePolicy) {m : Member α}
    (hm : m.classifier = Variant.pointerCount.classifier) :
    (g.freezeAll.withPhase .evaluating).seen.map (fun s => m.counted policy s.2) =
      m.evaluator.scoreOf (.number (Scalar.ofNat ((Log.contacts log).length - 1))) ::
        List.replicate ((Log.contacts log).length - 1) m.evaluator.floor := by
  have hne : g.freezeAll.strokes ≠ [] := by
    rwa [← List.length_pos_iff, h.length_strokes_freezeAll, Nat.pos_iff_ne_zero,
      ← h.strokeCount_eq]
  have hcounted := Member.map_counted_pointerCount policy hm hne h.points_ne_nil_freezeAll
  rw [h.length_strokes_freezeAll, ← strokes_withPhase _ .evaluating, ← map_snd_seen,
    List.map_map] at hcounted
  exact hcounted

end Gesture

namespace Engine

open Gesture

/-- Contacts beyond the first are counted once in a gesture. With the classifier that counts them in
a panel, in any place and beside any others, and a sound configuration: whatever has been touched,
in whatever order, the first contact scores what the table gives to the number of the other
contacts, each of these scores zero, and the total is that score to the last bit. -/
theorem extra_contacts_counted_once (e : Engine Float) (hc : e.config.Sound)
    (hk : Variant.pointerCount.classifier ∈ e.classifiers) (dpi : Float) (ts : List Touch) :
    let g := ((Gesture.empty dpi).follow ts).2
    let contacts := Log.contacts (Touch.log Float ((Gesture.empty dpi).taken ts))
    let extra := contacts.length - 1
    (∀ tags : List Name, contacts ≠ [] →
      (∀ k ∈ e.classifiers, ∃ ev, e.config.evaluatorFor k.feature = .ok ev) →
      e.classifiers.map Classifier.tag = tags.map Name.value → (tags.map Name.key).Nodup →
      ∃ v, (e.step g .evaluate).1 = .verdict v) ∧
    ∀ v, (e.step g .evaluate).1 = .verdict v → ∃ ev x,
      e.config.evaluatorFor (.text "pointer_count") = .ok ev ∧
      ev.score (.number (Scalar.ofNat extra)) = .ok x ∧
      (extra < 2 ^ 53 → ev.score (.value (.int extra)) = .ok x) ∧
      v.strokeScores.map Prod.fst = contacts ∧
      v.strokeScores.map (fun row => Keyed.get? row.2 (.text "PTR")) =
        some x :: List.replicate extra (some 0.0) ∧
      Keyed.get? v.scores (.text "PTR") = some x := by
  intro g contacts extra
  have hr : g.Represents dpi (Touch.log Float ((Gesture.empty dpi).taken ts)) :=
    (represents_empty dpi).follow_taken ts
  refine ⟨fun tags hne ht hg hd => ?_, fun v hv => ?_⟩
  · refine exists_verdict_of_tables hr.capturing ?_ ht hg hd
    rw [hr.strokeCount_eq]
    exact mt List.length_eq_zero_iff.mp hne
  · obtain ⟨panel, hseats, hkeys, haccount⟩ := exists_account_of_verdict hr hv
    obtain ⟨_, _, _, hs, _⟩ := exists_panel_of_verdict hv
    obtain ⟨m, hm, hseat⟩ := exists_of_forall₂ hseats.flip hk
    have htag : m.tag = .text "PTR" :=
      (Name.value_injective (show (Name.text "PTR").value = m.tag.value from hseat.tag)).symm
    have hcounted := hr.counted_pointerCount hs e.config.failurePolicy hseat.classifier
    refine ⟨m.evaluator, _, hseat.evaluator, Evaluator.score_of_measure? rfl, fun hn => ?_, ?_,
      ?_, ?_⟩
    · rw [Evaluator.score_of_measure? (m := .whole extra) rfl, Evaluator.scoreOf_ofNat _ hn]
    · rw [keys_strokeScores hr hv, hr.contactIds_eq]
    · have hcolumn := haccount.column hkeys hm
      rw [hcounted, htag, List.map_cons, List.map_replicate] at hcolumn
      exact hcolumn
    · have htotal := haccount.get?_scores hkeys hm
      rw [Member.total, hcounted, htag] at htotal
      rw [htotal]
      have hsound : m.evaluator.Sound := hc.evaluatorFor hseat.evaluator
      exact congrArg some (Binary64.sum_cons_replicate_zero (hsound.unsigned_scoreOf _) extra)

theorem counted_once_failsClosed :
    ∃ v, (failsClosed.step ((Gesture.empty 160.0).follow inTurns).2 .evaluate).1 = .verdict v ∧
      v.strokeScores.map (fun row => Keyed.get? row.2 (.text "PTR")) = [some 2.0, some 0.0] ∧
      Keyed.get? v.scores (.text "PTR") = some 2.0 := by
  have hsound : failsClosed.config.Sound :=
    ⟨by decide +kernel, by decide +kernel, by decide +kernel, by decide +kernel⟩
  obtain ⟨hexists, hall⟩ := failsClosed.extra_contacts_counted_once hsound List.mem_cons_self
    160.0 inTurns
  obtain ⟨v, hv⟩ := hexists [.text "PTR", .text "BASE"] (by decide +kernel)
    exists_table_failsClosed rfl (by decide)
  obtain ⟨ev, x, hev, hx, _, _, hcolumn, htotal⟩ := hall v hv
  obtain rfl : _ = ev := Except.ok.inj hev
  have hscore : failsClosed.config.evaluatorFor (.text "pointer_count") >>=
      (fun ev => ev.score (.number (Scalar.ofNat 1))) = .ok 2.0 :=
    eq_ok_of_toOption (by decide +kernel)
  obtain rfl : (2.0 : Float) = x := Except.ok.inj (hscore.symm.trans hx)
  exact ⟨v, hv, hcolumn, htotal⟩

end Engine

end StrayTouch
