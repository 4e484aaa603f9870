import StrayTouch.Proofs.Engine.Step
import StrayTouch.Proofs.Gesture.Store

/-!
The verdict on a gesture depends on the points of each contact and on the order of the first points
alone. How the touches of different contacts are interleaved, and when contacts are lifted, does
not count.
-/
namespace StrayTouch

open Gesture

variable {α : Type}

def Stroke.seenIn (strokes : List (Stroke α)) : List (Seen α) :=
  strokes.zipIdx.map fun s => ⟨s.1, s.2, strokes⟩

theorem Stroke.length_seenIn (strokes : List (Stroke α)) :
    (seenIn strokes).length = strokes.length := by
  simp [seenIn]

theorem Gesture.seen_eq_zip (g : Gesture α) :
    g.seen = g.contactIds.zip (Stroke.seenIn g.strokes) := by
  apply List.ext_getElem
  · simp [seen, contactIds, Keyed.keys, Stroke.length_seenIn, strokes]
  · intro i hi hj
    simp [seen, contactIds, Keyed.keys, Stroke.seenIn, strokes]

theorem Gesture.map_fst_seen (g : Gesture α) : g.seen.map Prod.fst = g.contactIds := by
  rw [seen_eq_zip, List.map_fst_zip]
  simp [Stroke.length_seenIn, contactIds, strokes, Keyed.keys]

/-- Verdicts that are equal in every field, where the same key may be spelled in another way. -/
structure Verdict.Agrees (v w : Verdict α) : Prop where
  decision : v.decision = w.decision
  aggregate : v.aggregate = w.aggregate
  threshold : v.threshold = w.threshold
  scores : v.scores = w.scores
  strokeScores : v.strokeScores.map (Prod.map Name.key id) =
    w.strokeScores.map (Prod.map Name.key id)
  failed : v.failed = w.failed

variable [Scalar α]

def Touch.call : Touch → Call
  | point id sample => .point id sample
  | up id => .up id

namespace Engine

variable {e : Engine α} {g : Gesture α} {dpi : α} {log : List (Gesture.Entry α)}

theorem step_call (e : Engine α) (g : Gesture α) (t : Touch) :
    e.step g t.call =
      match g.touch t with
      | (none, after) => (.done, after)
      | (some f, after) => (.refused f, after) := by
  cases t with
  | point id sample =>
    rw [Touch.call, step_point, Gesture.touch_point]
    cases g.addPoint id sample <;> rfl
  | up id =>
    rw [Touch.call, step_up, Gesture.touch_up]
    cases g.endStroke id <;> rfl

/-- Where all touches come out, the gesture stands for what they put into the log. -/
theorem represents_run (h : g.Represents dpi log) (ts : List Touch)
    (hr : ∀ r ∈ (e.run g (ts.map Touch.call)).1, r.succeeds = true) :
    (e.run g (ts.map Touch.call)).2.Represents dpi (log ++ Touch.log α ts) := by
  induction ts generalizing g log with
  | nil => simpa [Touch.log, run] using h
  | cons t ts ih =>
    simp only [List.map_cons, run, List.forall_mem_cons] at hr ⊢
    rw [step_call] at hr ⊢
    cases ht : (g.touch t).1 with
    | some f =>
      rw [Gesture.touch_of_fault ht] at hr
      exact absurd hr.1 (by simp)
    | none =>
      obtain ⟨entry, he, ha⟩ := h.touch ht
      have hp : g.touch t = (none, (g.touch t).2) := Prod.ext ht rfl
      rw [hp] at hr ⊢
      have hlog : log ++ Touch.log α (t :: ts) = log ++ [entry] ++ Touch.log α ts := by
        simp [Touch.log, he]
      rw [hlog]
      exact ih ha hr.2

def frozenStroke (dpi : α) (log : List (Gesture.Entry α)) (id : Name) : Stroke α :=
  ⟨dpi, Log.pointsOf log id, true⟩

theorem strokes_freezeAll (h : g.Represents dpi log) :
    g.freezeAll.strokes = (Log.contacts log).map (frozenStroke dpi log) := by
  rw [Gesture.strokes, Gesture.freezeAll, h.contacts_eq, List.map_map, List.map_map]
  rfl

def verdictOn (e : Engine α) (panel : List (Member α)) (ids : List Name)
    (strokes : List (Stroke α)) : Verdict α :=
  Verdict.ofJudgements e.config (panel.map Member.tag)
    (ids.zip ((Stroke.seenIn strokes).map fun s =>
      panel.map (Member.judge e.config.failurePolicy s)))

theorem judgements_eq (e : Engine α) (panel : List (Member α)) (g : Gesture α) :
    e.judgements panel g = g.contactIds.zip ((Stroke.seenIn g.strokes).map fun s =>
      panel.map (Member.judge e.config.failurePolicy s)) := by
  rw [judgements, Gesture.seen_eq_zip, List.zip_map_right]
  rfl

/-- What an evaluation replies, read off the log. -/
theorem evaluate_reply (h : g.Represents dpi log) :
    (e.step g .evaluate).1 =
      match Member.panel e.config e.classifiers with
      | .error f => .refused f
      | .ok panel =>
        if Log.contacts log = [] then .refused .emptyGesture
        else .verdict (e.verdictOn panel (Log.contacts log)
          ((Log.contacts log).map (frozenStroke dpi log))) := by
  have hz : g.strokeCount = 0 ↔ Log.contacts log = [] := by
    rw [Gesture.strokeCount, h.contacts_eq, List.length_map, List.length_eq_zero_iff]
  rw [step_evaluate, evaluate, judge, Gesture.beginEvaluation]
  cases hp : Member.panel e.config e.classifiers with
  | error f => rfl
  | ok panel =>
    by_cases hc : Log.contacts log = []
    · simp [h.capturing, hz.mpr hc, hc]
    · have hids : (g.freezeAll.withPhase .evaluating).contactIds = Log.contacts log := by
        rw [Gesture.contactIds_withPhase, Gesture.contactIds_freezeAll, h.contactIds_eq]
      have hstrokes : (g.freezeAll.withPhase .evaluating).strokes =
          (Log.contacts log).map (frozenStroke dpi log) := by
        rw [Gesture.strokes_withPhase, strokes_freezeAll h]
      simp [h.capturing, mt hz.mp hc, hc, judgements_eq, hids, hstrokes, verdictOn]

theorem verdictOn_agrees (e : Engine α) (panel : List (Member α)) {ids others : List Name}
    {strokes : List (Stroke α)} (hl : ids.length = strokes.length)
    (hd : (ids.map Name.key).Nodup) (h : ids.map Name.key = others.map Name.key) :
    (e.verdictOn panel ids strokes).Agrees (e.verdictOn panel others strokes) := by
  have ho : others.length = strokes.length := by
    rw [← hl, ← List.length_map (f := Name.key), ← h, List.length_map]
  rw [verdictOn, verdictOn, Verdict.ofJudgements_zip _ _ _ (by simp [hl, Stroke.length_seenIn]) hd,
    Verdict.ofJudgements_zip _ _ _ (by simp [ho, Stroke.length_seenIn]) (h ▸ hd)]
  refine ⟨rfl, rfl, rfl, rfl, ?_, rfl⟩
  simp only [Verdict.ofTally, ← List.zip_map, h]

private theorem map_eq_of_keys {β : Type} {f : Name → β} (hf : ∀ a b, a.key = b.key → f a = f b)
    {ids others : List Name} (h : ids.map Name.key = others.map Name.key) :
    ids.map f = others.map f := by
  induction ids generalizing others with
  | nil => simp [List.map_eq_nil_iff.mp h.symm]
  | cons id ids ih =>
    cases others with
    | nil => cases h
    | cons other others =>
      obtain ⟨hk, hr⟩ := List.cons.inj h
      rw [List.map_cons, List.map_cons, hf id other hk, ih hr]

/-- Two runs of touches that all come out, in which every contact has the same points and the
contacts have their first points in the same order, are decided alike: both evaluations deliver
equal verdicts, or both are refused for want of a panel or of a point. -/
theorem evaluate_of_interleavings (e : Engine α) (ts us : List Touch)
    (hts : ∀ r ∈ (e.run e.beginGesture (ts.map Touch.call)).1, r.succeeds = true)
    (hus : ∀ r ∈ (e.run e.beginGesture (us.map Touch.call)).1, r.succeeds = true)
    (hpoints : ∀ id, Log.pointsOf (Touch.log α ts) id =
      Log.pointsOf (Touch.log α us) id)
    (horder : (Log.contacts (Touch.log α ts)).map Name.key =
      (Log.contacts (Touch.log α us)).map Name.key) :
    let reply := (e.step (e.run e.beginGesture (ts.map Touch.call)).2 .evaluate).1
    let other := (e.step (e.run e.beginGesture (us.map Touch.call)).2 .evaluate).1
    (∃ v w, reply = .verdict v ∧ other = .verdict w ∧ v.Agrees w ∧
      (Log.contacts (Touch.log α ts) = Log.contacts (Touch.log α us) →
        v = w)) ∨
    ∃ f, reply = .refused f ∧ other = .refused f ∧
      (Member.panel e.config e.classifiers = .error f ∨
        f = .emptyGesture ∧ Log.contacts (Touch.log α ts) = []) := by
  intro reply other
  have ht := represents_run (Gesture.represents_empty e.config.dpi) ts hts
  have hu := represents_run (Gesture.represents_empty e.config.dpi) us hus
  have hreply : reply = _ := evaluate_reply ht
  have hother : other = _ := evaluate_reply hu
  simp only [List.nil_append] at hreply hother
  have hnil : Log.contacts (Touch.log α ts) = [] ↔
      Log.contacts (Touch.log α us) = [] := by
    rw [← List.map_eq_nil_iff (f := Name.key), horder, List.map_eq_nil_iff]
  have hstroke : frozenStroke e.config.dpi (Touch.log α ts) =
      frozenStroke e.config.dpi (Touch.log α us) := by
    funext id
    rw [frozenStroke, hpoints, frozenStroke]
  cases hp : Member.panel e.config e.classifiers with
  | error f =>
    rw [hp] at hreply hother
    exact .inr ⟨f, hreply, hother, .inl rfl⟩
  | ok panel =>
  rw [hp] at hreply hother
  by_cases hc : Log.contacts (Touch.log α ts) = []
  · simp only [hc, hnil.mp hc, ↓reduceIte] at hreply hother
    exact .inr ⟨.emptyGesture, hreply, hother, .inr ⟨rfl, hc⟩⟩
  · simp only [hc, mt hnil.mpr hc, ↓reduceIte] at hreply hother
    have hstrokes := map_eq_of_keys (f := frozenStroke e.config.dpi (Touch.log α us))
      (fun a b hk => by rw [frozenStroke, frozenStroke, Log.pointsOf_congr hk]) horder
    rw [hstroke, hstrokes] at hreply
    refine .inl ⟨_, _, hreply, hother, ?_, ?_⟩
    · refine e.verdictOn_agrees panel ?_ (Log.nodup_contacts _) horder
      have hl := congrArg List.length horder
      simpa using hl
    · intro hs
      rw [hs]

def contactCounter : Engine Float where
  config := ⟨160.0, 2.0, .reject, .floor,
    [(.text "pointer_count", ⟨[(0.5, 2.0), (1.5, 2.0)], .above⟩)]⟩
  classifiers := [Variant.pointerCount.classifier]

private def press (id time : Int) (x : Float) : Touch :=
  .point (.int id) ⟨.atom (.float x), .atom (.float 0.5), .int time, .null⟩

def inTurns : List Touch :=
  [press 1 0 1.5, press 2 1 2.5, press 1 2 3.5, .up (.int 1)]

def oneByOne : List Touch :=
  [press 1 0 1.5, press 1 2 3.5, press 2 1 2.5]

theorem pointsOf_inTurns (id : Name) :
    Log.pointsOf (Touch.log Float inTurns) id = Log.pointsOf (Touch.log Float oneByOne) id := by
  have hi : Touch.log Float inTurns = [.point (.int 1) ⟨1.5, 0.5, 0, none⟩,
      .point (.int 2) ⟨2.5, 0.5, 1, none⟩, .point (.int 1) ⟨3.5, 0.5, 2, none⟩, .up (.int 1)] := rfl
  have ho : Touch.log Float oneByOne = [.point (.int 1) ⟨1.5, 0.5, 0, none⟩,
      .point (.int 1) ⟨3.5, 0.5, 2, none⟩, .point (.int 2) ⟨2.5, 0.5, 1, none⟩] := rfl
  rw [hi, ho]
  by_cases h : (Name.int 1).sameKey id = true
  · have hn : (Name.int 2).sameKey id = false := by
      rw [Name.sameKey_eq_false_iff, ← Name.sameKey_iff.mp h]
      decide
    simp [Log.pointsOf, Gesture.Entry.pointFor?, h, hn]
  · simp [Log.pointsOf, List.filterMap_cons, Gesture.Entry.pointFor?, h]

theorem evaluate_inTurns :
    ∃ v, (contactCounter.step (contactCounter.run contactCounter.beginGesture
        (inTurns.map Touch.call)).2 .evaluate).1 = .verdict v ∧
      (contactCounter.step (contactCounter.run contactCounter.beginGesture
        (oneByOne.map Touch.call)).2 .evaluate).1 = .verdict v := by
  have h := contactCounter.evaluate_of_interleavings inTurns oneByOne (by decide +kernel)
    (by decide +kernel) pointsOf_inTurns (by decide +kernel)
  rcases h with ⟨v, w, hv, hw, _, he⟩ | ⟨f, hf, _, _⟩
  · exact ⟨v, hv, by rw [hw, he rfl]⟩
  · have hv : (contactCounter.step (contactCounter.run contactCounter.beginGesture
        (inTurns.map Touch.call)).2 .evaluate).1.isVerdict = true := by decide +kernel
    rw [hf] at hv
    cases hv

end Engine

end StrayTouch
