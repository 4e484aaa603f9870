import StrayTouch.Memory.Session
import StrayTouch.Proofs.Engine.Evaluation
import StrayTouch.Proofs.Memory.Steps

/-!
Calls on memory. Classifiers are steady when they answer for a stroke by the table and the stroke,
however often they are asked, and write in nothing but what they keep. With steady classifiers a
call on the gesture of a handle agrees with the call of the engine on that gesture.
-/
namespace StrayTouch

open Steps (Match Agree)

variable {α κ : Type}

/-- A program that always answers as a classifier does, under one configuration. What is kept may
change under it, as long as `K` holds of it; everything else it leaves alone. -/
structure Program.Steady (K : κ → Prop) (c : Config α) (p : Program α κ) (k : Classifier α) :
    Prop where
  tag : ∀ kept, K kept → p.tag kept = k.tag
  feature : ∀ kept, K kept → p.feature kept = k.feature
  answer : ∀ (m : Memory α κ) (ev : Evaluator α) {n place : Nat} {seen : Seen α}, K m.kept →
    m.config = c → m.seen? n place = some seen → ∃ kept, K kept ∧
      (p.answer ev n place).run m = (Steps.of (k.answer ev seen)).run (m.withKept kept)

/-- Steady classifiers, and a listener that may fail but leaves alone what it does not keep. -/
structure Callbacks.Steady (K : κ → Prop) (c : Config α) (b : Callbacks α κ)
    (ks : List (Classifier α)) : Prop where
  classifiers : List.Forall₂ (Program.Steady K c) b.classifiers ks
  hear : ∀ (v : Verdict α) (m : Memory α κ), K m.kept →
    ∃ (r : Except Fault Unit) (kept : κ), K kept ∧
      (b.hear v).run m = (Steps.of r).run (m.withKept kept)

/-- Classifiers that keep nothing are steady, the standard ones among them. -/
theorem Classifier.steady_program (K : κ → Prop) (c : Config α) (k : Classifier α) :
    k.program.Steady K c k where
  tag := fun _ _ => rfl
  feature := fun _ _ => rfl
  answer := by
    intro m ev n place seen hkept _ hseen
    refine ⟨m.kept, hkept, ?_⟩
    simp only [program, EStateM.run_bind, EStateM.run_get, hseen]
    rfl

theorem Gesture.getElem?_seen_of_mem {g : Gesture α} {s : Name × Seen α} (h : s ∈ g.seen) :
    g.seen[s.2.place]? = some s := by
  obtain ⟨c, hc, rfl⟩ := List.mem_map.mp h
  have hi := List.mem_zipIdx_iff_getElem?.mp hc
  simp [seen, hi]

namespace Memory

open Program (Seat)

variable {K : κ → Prop} {base : Memory α κ} {n : Nat} {c : Config α} {ks : List (Classifier α)}
  {ps : List (Program α κ)}

/-- A seat that is taken as a member of a panel takes it. -/
structure Seated (K : κ → Prop) (c : Config α) (s : Seat α κ) (m : Member α) : Prop where
  program : s.program.Steady K c m.classifier
  tag : s.tag = m.tag
  evaluator : s.evaluator = m.evaluator

theorem forall₂_seated (h : List.Forall₂ (Program.Steady K c) ps ks)
    (places : List (Name × Evaluator α)) :
    List.Forall₂ (Seated K c) (List.zipWith (fun p (t, ev) => ⟨p, t, ev⟩) ps places)
      (List.zipWith (fun k (t, ev) => ⟨k, t, ev⟩) ks places) := by
  induction h generalizing places with
  | nil => exact .nil
  | cons hp _ ih =>
    cases places with
    | nil => exact .nil
    | cons place places => exact .cons ⟨hp, rfl, rfl⟩ (ih places)

theorem map_tag_of_seated {panel : List (Seat α κ)} {members : List (Member α)}
    (h : List.Forall₂ (Seated K c) panel members) :
    panel.map Seat.tag = members.map Member.tag := by
  induction h with
  | nil => rfl
  | cons hs _ ih => rw [List.map_cons, List.map_cons, hs.tag, ih]

variable [Scalar α]

omit [Scalar α] in
theorem seat_agree (h : List.Forall₂ (Program.Steady K c) ps ks) (hc : base.config = c) :
    Agree (base.Stands K n) (List.Forall₂ (Seated K c)) (seat ps)
      (Steps.of (Member.panel c ks)) := by
  intro m g hm
  have htables : (ps.mapM fun p => m.config.evaluatorFor (p.feature m.kept)) =
      ks.mapM fun k => c.evaluatorFor k.feature :=
    mapM_congr_forall₂ (h.imp fun p k hp => by rw [hm.config, hc, hp.feature _ hm.kept])
  have htags : (ps.mapM fun p => (p.tag m.kept).toName) = ks.mapM fun k => k.tag.toName :=
    mapM_congr_forall₂ (h.imp fun p k hp => by rw [hp.tag _ hm.kept])
  unfold seat Member.panel
  simp only [EStateM.run_bind, EStateM.run_get, htables, htags]
  cases (ks.mapM fun k => c.evaluatorFor k.feature) with
  | error f => exact .error f hm
  | ok tables =>
  cases (ks.mapM fun k => k.tag.toName) with
  | error f => exact .error f hm
  | ok tags =>
  simp only [Steps.run_of_ok, ok_bind]
  split
  · exact .ok (forall₂_seated h _) hm
  · exact .error _ hm

/-- While a gesture is being scored it stays as it is. -/
def Scores (K : κ → Prop) (base : Memory α κ) (n : Nat) (evaluated : Gesture α)
    (m : Memory α κ) (g : Gesture α) : Prop :=
  base.Stands K n m g ∧ g = evaluated

variable {evaluated : Gesture α} {s : Seat α κ} {k : Member α} {stroke : Name × Seen α}

theorem tryScore_agree (hc : base.config = c) (hs : Seated K c s k)
    (hstroke : stroke ∈ evaluated.seen) :
    Agree (base.Scores K n evaluated) Eq (s.tryScore n stroke.2.place)
      (k.tryScore stroke.2) := by
  refine Agree.attempt (Agree.bind (V := Eq) ?_ ?_)
  · rintro m g ⟨h, rfl⟩
    have hseen : m.seen? n stroke.2.place = some stroke.2 := by
      simp [seen?, h.shown_self, Gesture.getElem?_seen_of_mem hstroke]
    obtain ⟨kept, hkept, hrun⟩ := hs.program.answer m s.evaluator h.kept (h.config.trans hc) hseen
    rw [hrun, hs.evaluator]
    exact Agree.of _ _ _ ⟨h.withKept hkept, rfl⟩
  · rintro r _ rfl
    exact .of _

theorem book_agree {σ τ : Type} {R : σ → τ → Prop} (tag : Name) (score? : Option α)
    (substitute : α) (before : List (Name × α) × Tally α) :
    Agree R Eq (Tally.book tag score? substitute before)
      (Tally.book tag score? substitute before) := by
  unfold Tally.book
  refine (Agree.entry _ _).bind ?_
  rintro total _ rfl
  exact .pure rfl

theorem scoreSeat_agree (hc : base.config = c) (hs : Seated K c s k)
    (hstroke : stroke ∈ evaluated.seen) (before : List (Name × α) × Tally α) :
    Agree (base.Scores K n evaluated) Eq (scoreSeat n stroke.2.place before s)
      (Tally.scoreMember c.failurePolicy stroke.2 before k) := by
  unfold scoreSeat Tally.scoreMember
  refine (tryScore_agree hc hs hstroke).bind ?_
  rintro score? _ rfl m g h
  rw [EStateM.run_bind, EStateM.run_get, hs.tag, hs.evaluator]
  dsimp only
  rw [h.1.config, hc]
  exact book_agree _ _ _ _ m g h

theorem scoreStroke_agree {panel : List (Seat α κ)} {members : List (Member α)}
    (hc : base.config = c) (hpanel : List.Forall₂ (Seated K c) panel members)
    (hstroke : stroke ∈ evaluated.seen) (t : Tally α) :
    Agree (base.Scores K n evaluated) Eq (scoreStroke n panel t stroke)
      (Tally.scoreStroke c.failurePolicy members t stroke) := by
  unfold scoreStroke Tally.scoreStroke
  refine (Agree.foldlM (hpanel.imp fun s k hs before =>
    scoreSeat_agree hc hs hstroke before) _).bind ?_
  rintro x _ rfl
  exact .pure rfl

theorem decideGesture_agree (h : List.Forall₂ (Program.Steady K c) ps ks) (hc : base.config = c) :
    Agree (base.Stands K n) Eq (decideGesture ps n) (Engine.decideGesture ⟨c, ks⟩) := by
  unfold decideGesture Engine.decideGesture
  refine (seat_agree h hc).bind fun panel members hpanel => ?_
  refine read_agree.bind ?_
  rintro g _ rfl
  split
  · split <;> exact fun _ _ hm => .error _ hm
  split
  · exact fun _ _ hm => .error _ hm
  refine (setPhase_agree .evaluating).bind fun _ _ _ => ?_
  refine freezeAll_agree.bind fun _ _ _ => ?_
  intro m evaluated hm
  rw [EStateM.run_bind, read_run hm.shown_self, EStateM.run_bind, EStateM.run_get]
  have hscores : Agree (base.Scores K n evaluated) Eq
      (evaluated.seen.foldlM (scoreStroke n panel) (Tally.start (panel.map Seat.tag)))
      (evaluated.seen.foldlM (Tally.scoreStroke c.failurePolicy members)
        (Tally.start (members.map Member.tag))) := by
    rw [map_tag_of_seated hpanel]
    refine Agree.foldlM ?_ _
    rw [List.forall₂_same]
    exact fun stroke hstroke t => scoreStroke_agree hc hpanel hstroke t
  refine (hscores m evaluated ⟨hm, rfl⟩).bind (fun _ _ h => h.1) ?_
  rintro tally _ rfl m g ⟨hm, -⟩
  rw [EStateM.run_bind, EStateM.run_get]
  dsimp only
  rw [hm.config, hc]
  exact ((setPhase_agree .decided).bind fun _ _ _ => .pure rfl) m g hm

/-- A call on the gesture of a handle agrees with the call of the engine on that gesture. -/
theorem call_agree {b : Callbacks α κ} (h : b.Steady K c ks) (hc : base.config = c) (x : Call) :
    Agree (base.Stands K n) Eq (call b n x) (Engine.perform ⟨c, ks⟩ x) := by
  cases x with
  | point id sample => exact (takePoint_agree id sample).bind fun _ _ _ => .pure rfl
  | up id => exact (liftContact_agree id).bind fun _ _ _ => .pure rfl
  | cancel => exact giveUp_agree.bind fun _ _ _ => .pure rfl
  | evaluate =>
    refine (decideGesture_agree h.classifiers hc).bind ?_
    rintro v _ rfl
    exact .pure rfl

end Memory

end StrayTouch
