import StrayTouch.Proofs.Engine.Defaults
import StrayTouch.Proofs.Engine.Isolation
import StrayTouch.Proofs.Evaluator.Order
import StrayTouch.Proofs.Gesture.Contact
import StrayTouch.Proofs.Number.Counting

/-!
Verdicts on a gesture with one more contact. Of the scores of the other contacts only the count of
contacts changes, which stands at the first of them and does not fall, and the new contact adds
scores of its own.
-/
namespace StrayTouch

variable {α : Type}

/-- A stroke among its strokes and one more. -/
def Seen.beside (x : Seen α) (s : Stroke α) : Seen α :=
  ⟨x.stroke, x.place, x.strokes ++ [s]⟩

theorem Stroke.seenIn_append (strokes : List (Stroke α)) (s : Stroke α) :
    seenIn (strokes ++ [s]) =
      (seenIn strokes).map (fun x => x.beside s) ++ [⟨s, strokes.length, strokes ++ [s]⟩] := by
  simp [seenIn, List.zipIdx_append, Seen.beside]

variable [Scalar α]

namespace Variant

variable {v : Variant} {x : Seen α}

/-- Only the count of contacts looks at other strokes, and only at the first stroke. -/
theorem answer_beside (h : v ≠ pointerCount ∨ x.isFirst = false) (ev : Evaluator α)
    (s : Stroke α) : v.classifier.answer ev (x.beside s) = v.classifier.answer ev x := by
  have hread : v.read (x.beside s) = v.read x := by
    cases v with
    | pointerCount =>
      have hfirst : x.isFirst = false := h.resolve_left fun hne => hne rfl
      have hbeside : (x.beside s).isFirst = false := hfirst
      simp only [read, hfirst, hbeside]
      rfl
    | _ => rfl
  rw [answer_eq, answer_eq, hread]
  rfl

theorem answer_pointerCount (h : x.isFirst = true) (ev : Evaluator α) :
    pointerCount.classifier.answer ev x = .ok (.number
      (if x.stroke.count < 1 then ev.floor
        else ev.scoreOf (.number (Scalar.ofNat (x.strokes.length - 1))))) := by
  rw [answer_eq]
  simp only [read, h, ↓reduceIte, minPoints, Except.map, Option.elim]
  split <;> rfl

end Variant

namespace Member

variable {m : Member α} {v : Variant} {x : Seen α}

theorem counted_beside_eq (policy : FailurePolicy) (hm : m.classifier = v.classifier)
    (h : v ≠ .pointerCount ∨ x.isFirst = false) (s : Stroke α) :
    m.counted policy (x.beside s) = m.counted policy x := by
  unfold counted outcome
  rw [hm, Variant.answer_beside h]

theorem counted_pointerCount (policy : FailurePolicy)
    (hm : m.classifier = Variant.pointerCount.classifier) (h : x.isFirst = true) :
    m.counted policy x = if x.stroke.count < 1 then m.evaluator.floor
      else m.evaluator.scoreOf (.number (Scalar.ofNat (x.strokes.length - 1))) := by
  unfold counted outcome
  rw [hm, Variant.answer_pointerCount h]
  rfl

variable [Scalar.Monotone α]

theorem counted_variant_nonneg (policy : FailurePolicy) (hm : m.classifier = v.classifier)
    (hs : m.evaluator.Sound) (x : Seen α) :
    Scalar.le Scalar.zero (m.counted policy x) = true :=
  ((inRange_counted_iff policy hs).mpr
    (answersInRange_of_scoresByTable hs (hm ▸ Classifier.scoresByTable_variant v) x)).1

/-- A score does not fall because of one more contact. -/
theorem counted_le_beside [Scalar.Counting α] (policy : FailurePolicy)
    (hm : m.classifier = v.classifier) (hs : m.evaluator.Sound)
    (hd : v = .pointerCount → m.evaluator.direction = .above) (x : Seen α) (s : Stroke α) :
    Scalar.le (m.counted policy x) (m.counted policy (x.beside s)) = true := by
  have hzero := counted_variant_nonneg policy hm hs x
  by_cases h : v ≠ .pointerCount ∨ x.isFirst = false
  · rw [counted_beside_eq policy hm h]
    exact Scalar.Monotone.le_refl hzero
  · obtain ⟨rfl, hfirst⟩ : v = .pointerCount ∧ x.isFirst = true := by simpa using h
    have hbeside : (x.beside s).isFirst = true := hfirst
    have hcount : x.strokes.length - 1 ≤ (x.beside s).strokes.length - 1 := by
      simp [Seen.beside]
    rw [counted_pointerCount policy hm hfirst, counted_pointerCount policy hm hbeside]
    by_cases hshort : x.stroke.count < 1
    · have hbesideShort : (x.beside s).stroke.count < 1 := hshort
      rw [if_pos hshort, if_pos hbesideShort]
      exact Scalar.Monotone.zero_le_zero
    · have hbesideLong : ¬ (x.beside s).stroke.count < 1 := hshort
      rw [if_neg hshort, if_neg hbesideLong]
      exact m.evaluator.scoreOf_number_le hs (hd rfl) (Scalar.Counting.ofNat_le hcount)

end Member

namespace Verdict

/-- One verdict is on the contacts of another and one more. -/
structure Joined (v w : Verdict α) (id : Name) : Prop where
  contacts : w.strokeScores.map Prod.fst = v.strokeScores.map Prod.fst ++ [id]
  entries : ∀ place i tag x, v.entry? place i = some (tag, x) →
    ∃ y, w.entry? place i = some (tag, y) ∧ Scalar.le x y = true ∧
      (y = x ∨ place = 0 ∧ tag = .text Variant.pointerCount.tag)
  scores : List.Forall₂ (fun x y => x.1 = y.1 ∧ Scalar.le x.2 y.2 = true) v.scores w.scores
  aggregate : Scalar.le v.aggregate w.aggregate = true
  decision : v.decision = .reject → w.decision = .reject

variable [Scalar.Monotone α] [Scalar.Counting α] {v w : Verdict α} {c : Config α}
  {panel : List (Member α)} {seen : List (Name × Seen α)}

theorem AccountsFor.joined (hv : v.AccountsFor c panel seen) {id : Name} {s : Stroke α}
    {last : Seen α}
    (hw : w.AccountsFor c panel
      (seen.map (fun x : Name × Seen α => (x.1, x.2.beside s)) ++ [(id, last)]))
    (hseen : ∀ (place : Nat) (x : Name × Seen α), seen[place]? = some x → x.2.place = place)
    (hpanel : ∀ m ∈ panel, ∃ k : Variant, m.classifier = k.classifier ∧ m.tag = .text k.tag ∧
      m.evaluator.Sound ∧ (k = .pointerCount → m.evaluator.direction = .above)) :
    v.Joined w id := by
  obtain ⟨hscores, haggregate⟩ := hv.totals_le hw (List.forall₂_same.mpr fun m hm => by
    obtain ⟨k, hk, _, hs, hd⟩ := hpanel m hm
    have hpart : List.Forall₂ (fun x y =>
        Scalar.le Scalar.zero (m.counted c.failurePolicy x.2) = true ∧
          Scalar.le (m.counted c.failurePolicy x.2) (m.counted c.failurePolicy y.2) = true)
        seen (seen.map fun x : Name × Seen α => (x.1, x.2.beside s)) := by
      rw [List.forall₂_map_right_iff, List.forall₂_same]
      intro x _
      exact ⟨Member.counted_variant_nonneg _ hk hs x.2, Member.counted_le_beside _ hk hs hd x.2 s⟩
    obtain ⟨hzero, hle⟩ := Member.total_le_total hpart
    refine ⟨rfl, hzero, ?_⟩
    rw [Member.total_append_singleton]
    exact Scalar.Monotone.le_trans hle (Scalar.le_add (Scalar.Monotone.le_trans hzero hle)
      (Member.counted_variant_nonneg _ hk hs last)))
  refine ⟨?_, ?_, hscores, haggregate, hv.reject_of_le hw rfl rfl haggregate⟩
  · rw [hv.strokeScores, hw.strokeScores]
    simp
  · intro place i tag x hx
    rw [hv.entry?] at hx
    obtain ⟨p, hp, hrow⟩ := Option.bind_eq_some_iff.mp hx
    obtain ⟨m, hm, he⟩ := Option.map_eq_some_iff.mp hrow
    obtain ⟨rfl, rfl⟩ := Prod.mk.inj he
    obtain ⟨k, hk, htag, hs, hd⟩ := hpanel m (List.mem_of_getElem? hm)
    have hbound : place < (seen.map fun x : Name × Seen α => (x.1, x.2.beside s)).length := by
      rw [List.length_map]
      exact (List.getElem?_eq_some_iff.mp hp).1
    refine ⟨m.counted c.failurePolicy (p.2.beside s), ?_, Member.counted_le_beside _ hk hs hd p.2 s,
      ?_⟩
    · rw [hw.entry?, List.getElem?_append_left hbound, List.getElem?_map, hp, hm]
      rfl
    · by_cases h : k ≠ .pointerCount ∨ p.2.isFirst = false
      · exact .inl (Member.counted_beside_eq _ hk h s)
      · obtain ⟨rfl, hfirst⟩ : k = .pointerCount ∧ p.2.isFirst = true := by simpa using h
        rw [Seen.isFirst, beq_iff_eq, hseen place p hp] at hfirst
        exact .inr ⟨hfirst, htag⟩

end Verdict

namespace Gesture.Represents

variable {g after : Gesture α} {dpi : α} {log entries : List (Gesture.Entry α)}

theorem seen_freezeAll (h : g.Represents dpi log) (p : Phase) :
    (g.freezeAll.withPhase p).seen = (Log.contacts log).zip
      (Stroke.seenIn ((Log.contacts log).map (Engine.frozenStroke dpi log))) := by
  rw [seen_eq_zip, contactIds_withPhase, contactIds_freezeAll, strokes_withPhase,
    Engine.strokes_freezeAll h, h.contactIds_eq]

/-- The strokes as they are seen once a new contact has been added. -/
theorem seen_of_new (h : g.Represents dpi log) (ha : after.Represents dpi (log ++ entries))
    {id : Name} (hnew : g.stroke? id = none)
    (hcontacts : Log.contacts (log ++ entries) = Log.contacts log ++ [id])
    (hpoints : ∀ other, other.key ≠ id.key →
      Log.pointsOf (log ++ entries) other = Log.pointsOf log other) (p : Phase) :
    ∃ s last, (after.freezeAll.withPhase p).seen =
      (g.freezeAll.withPhase p).seen.map (fun x => (x.1, x.2.beside s)) ++ [(id, last)] := by
  have hstrokes : (Log.contacts log).map (Engine.frozenStroke dpi (log ++ entries)) =
      (Log.contacts log).map (Engine.frozenStroke dpi log) := by
    apply List.map_congr_left
    intro other hother
    have hkey : other.key ≠ id.key := by
      intro hk
      have hany := h.any_contacts_of_new hnew
      rw [List.any_eq_false] at hany
      exact hany other hother (Name.sameKey_iff.mpr hk.symm)
    rw [Engine.frozenStroke, hpoints other hkey, Engine.frozenStroke]
  let strokes := (Log.contacts log).map (Engine.frozenStroke dpi log)
  let s := Engine.frozenStroke dpi (log ++ entries) id
  refine ⟨s, ⟨s, strokes.length, strokes ++ [s]⟩, ?_⟩
  rw [h.seen_freezeAll, ha.seen_freezeAll, hcontacts, List.map_append, hstrokes,
    List.map_singleton, Stroke.seenIn_append, List.zip_append, List.zip_map_right]
  · rfl
  · simp [Stroke.length_seenIn]

end Gesture.Represents

namespace Engine

/-- One more contact never helps. Whatever has been touched, and whatever a new contact does after
it: the evaluation delivers a verdict with and without that contact, in which no total and no
aggregate is lower with it, the scores of the others are the same except for the count of contacts
at the first of them, and what was rejected is rejected. -/
theorem another_contact_joined [Scalar.Monotone α] [Scalar.Counting α] {settings : Settings α}
    {c : Config α} (hbuild : Config.build settings = .ok c) (hc : c.Sound)
    (hd : ∀ ev, c.evaluatorFor (.text "pointer_count") = .ok ev → ev.direction = .above) (dpi : α)
    (ts us : List Touch) (id : Name)
    (hs : ((Gesture.empty dpi).follow ts).2.strokeCount ≠ 0)
    (hnew : ((Gesture.empty dpi).follow ts).2.stroke? id = none) (hne : us ≠ [])
    (hus : ∀ u ∈ us, u.contact = id.value)
    (hall : ∀ f? ∈ (((Gesture.empty dpi).follow ts).2.follow us).1, f? = none) :
    let g := ((Gesture.empty dpi).follow ts).2
    ∃ v w, ((standard c).step g .evaluate).1 = .verdict v ∧
      ((standard c).step (g.follow us).2 .evaluate).1 = .verdict w ∧ v.Joined w id := by
  intro g
  obtain ⟨log, _, hr⟩ := (Gesture.represents_empty dpi).follow ts
  rw [List.nil_append] at hr
  obtain ⟨ha, hcontacts, hpoints⟩ := hr.follow_new hnew hne hus hall
  obtain ⟨panel, hp, hvariants⟩ := Variant.exists_panel hbuild
  obtain ⟨hseats, hkeys⟩ := Member.panel_eq_ok_iff.mp hp
  have hmore : (g.follow us).2.strokeCount ≠ 0 := by
    rw [Gesture.strokeCount, ha.contacts_eq, hcontacts]
    simp
  have hv := (standard c).accountsFor_of_represents hr hkeys
  have hw := (standard c).accountsFor_of_represents ha hkeys
  obtain ⟨s, last, hseen⟩ := hr.seen_of_new ha hnew hcontacts hpoints .evaluating
  rw [hseen] at hw
  refine ⟨_, _, congrArg Prod.fst (step_evaluate_of_panel hp hr.capturing hs),
    congrArg Prod.fst (step_evaluate_of_panel hp ha.capturing hmore), hv.joined hw
      (fun _ _ => place_of_seen) fun m hm => ?_⟩
  obtain ⟨k, _, hk, htag⟩ := exists_of_forall₂ hvariants hm
  obtain ⟨classifier, _, hseat⟩ := exists_of_forall₂ hseats hm
  refine ⟨k, hk, htag, hc.evaluatorFor hseat.evaluator, fun hcount => ?_⟩
  apply hd
  have hfeature : classifier.feature = .text k.feature := by
    rw [← hseat.classifier, hk]
    rfl
  rw [← hseat.evaluator, hfeature, hcount]
  rfl

/-- A contact that comes after two others and is lifted again. -/
def thirdContact : List Touch :=
  [.point (.int 3) ⟨.atom (.float 4.5), .atom (.float 0.5), .int 1, .null⟩, .up (.int 3)]

theorem direction_pointerCount_unset {c : Config Float} (hc : Config.build Settings.unset = .ok c)
    {ev : Evaluator Float} (h : c.evaluatorFor (.text "pointer_count") = .ok ev) :
    ev.direction = .above := by
  have hall : (match Config.build (Settings.unset (α := Float)) >>= fun c =>
      c.evaluatorFor (.text "pointer_count") with
    | .ok ev => decide (ev.direction = .above)
    | .error _ => false) = true := by decide +kernel
  rw [hc, ok_bind, h] at hall
  exact of_decide_eq_true hall

theorem joined_thirdContact :
    ∃ c v w, Config.build Settings.unset = .ok c ∧
      ((standard c).step ((Gesture.empty (160.0 : Float)).follow inTurns).2
        .evaluate).1 = .verdict v ∧
      ((standard c).step (((Gesture.empty (160.0 : Float)).follow inTurns).2.follow thirdContact).2
        .evaluate).1 = .verdict w ∧ v.Joined w (.int 3) := by
  obtain ⟨c, hc⟩ := Config.exists_build_unset
  have hsound : c.Sound := Config.sound_of_build Config.defaultEvaluators_sound
    (fun _ h => by cases h) hc
  have hnew : (((Gesture.empty (160.0 : Float)).follow inTurns).2.stroke? (.int 3)).isNone =
      true := by decide +kernel
  have hall : (((Gesture.empty (160.0 : Float)).follow inTurns).2.follow thirdContact).1.all
      Option.isNone = true := by decide +kernel
  obtain ⟨v, w, hv, hw, hjoined⟩ := another_contact_joined hc hsound
    (fun _ => direction_pointerCount_unset hc) 160.0 inTurns thirdContact (.int 3)
    (by decide +kernel) (Option.isNone_iff_eq_none.mp hnew) (by simp [thirdContact])
    (by simp [thirdContact, Touch.contact, Value.int])
    (fun f? hf => Option.isNone_iff_eq_none.mp (List.all_eq_true.mp hall f? hf))
  exact ⟨c, v, w, hc, hv, hw, hjoined⟩

end Engine

end StrayTouch
