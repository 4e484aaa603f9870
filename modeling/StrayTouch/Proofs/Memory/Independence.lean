import StrayTouch.Proofs.Engine.Interleaving
import StrayTouch.Proofs.Memory.Evaluation
import StrayTouch.Proofs.Session.Independence

/-!
The gestures of an engine are independent, although they stand in one memory beside the
configuration that all of them read and what classifiers and listeners keep. A command does on
memory what it does in a session of gestures that share nothing, as long as the classifiers are
steady.
-/
namespace StrayTouch

variable {α κ : Type}

namespace Memory

/-- The gestures of a memory as those of a session that nothing listens to. -/
def session (m : Memory α κ) (ks : List (Classifier α)) : Session α :=
  ⟨⟨m.config, ks⟩, m.shownGestures, .absent⟩

/-- What a command leaves of a memory: the configuration and its tables are untouched, no stroke has
come to be that of two gestures, and `K` holds of what is kept. -/
structure Keeps (K : κ → Prop) (m after : Memory α κ) : Prop where
  shelf : after.shelf = m.shelf
  settings : after.settings = m.settings
  apart : after.Apart
  kept : K after.kept

variable {K : κ → Prop} {m next after : Memory α κ} {b : Callbacks α κ} {ks : List (Classifier α)}
  {n : Nat}

theorem Keeps.trans (h : m.Keeps K next) (h' : next.Keeps K after) : m.Keeps K after :=
  ⟨h'.shelf.trans h.shelf, h'.settings.trans h.settings, h'.apart, h'.kept⟩

theorem Keeps.config (h : m.Keeps K after) : after.config = m.config := by
  rw [Memory.config, Memory.config, h.shelf, h.settings]

theorem Stands.keeps {g : Gesture α} (h : m.Stands K n after g) : m.Keeps K after :=
  ⟨h.shelf, h.settings, h.apart, h.kept⟩

theorem apart_begin {dpi : α} (h : m.Apart) :
    (m.withGestures (m.gestures ++ [⟨dpi, .capturing, []⟩])).Apart := by
  refine ⟨?_, ?_, ?_⟩
  · exact List.forall_mem_append.mpr ⟨h.within, by simp [Gesture.Placed.places]⟩
  · exact List.forall_mem_append.mpr ⟨h.distinct, by simp [Gesture.Placed.places]⟩
  · intro i j g other hg ho hij
    simp only [withGestures, List.getElem?_append] at hg ho
    by_cases hi : i < m.gestures.length
    · rw [if_pos hi] at hg
      by_cases hj : j < m.gestures.length
      · rw [if_pos hj] at ho
        exact h.disjoint hg ho hij
      · rw [if_neg hj] at ho
        obtain rfl := List.mem_singleton.mp (List.mem_of_getElem? ho)
        exact List.disjoint_nil_right _
    · rw [if_neg hi] at hg
      obtain rfl := List.mem_singleton.mp (List.mem_of_getElem? hg)
      exact List.disjoint_nil_left _

variable [Scalar α]

theorem step_call_of_error {f : Fault} {x : Call} (hn : n < m.gestures.length)
    (h : (call b n x).run m = .error f after) :
    step b m (.call n x) = (.reply (.refused f), after) := by
  simp only [step, perform, EStateM.run_bind, EStateM.run_get, if_pos hn, h]

/-- Hearing of a verdict changes nothing but what is kept, and the verdict is delivered. -/
theorem step_call_of_ok (hb : b.Steady K m.config ks) {r : Reply α} {x : Call}
    (hn : n < m.gestures.length) (h : (call b n x).run m = .ok r after) (hkept : K after.kept) :
    ∃ kept, K kept ∧ step b m (.call n x) = (.reply r, after.withKept kept) := by
  simp only [step, perform, EStateM.run_bind, EStateM.run_get, if_pos hn, h]
  cases r with
  | done => exact ⟨after.kept, hkept, rfl⟩
  | refused f => exact ⟨after.kept, hkept, rfl⟩
  | verdict v =>
    obtain ⟨answer, kept, hk, hrun⟩ := hb.hear v after hkept
    refine ⟨kept, hk, ?_⟩
    cases answer with
    | ok _ =>
      simp only [EStateM.run_bind, Steps.run_attempt_of_ok hrun]
      rfl
    | error f =>
      simp only [EStateM.run_bind, Steps.run_attempt_of_error hrun]
      rfl

/-- A call on the gesture of a handle does to it what the engine does, and to no other gesture
anything. -/
theorem step_call_stands (hb : b.Steady K m.config ks) (h : m.Apart) (hkept : K m.kept)
    {g : Gesture α} (hg : m.shownGestures[n]? = some g) (x : Call) :
    (step b m (.call n x)).1 = .reply (Engine.step ⟨m.config, ks⟩ g x).1 ∧
      m.Stands K n (step b m (.call n x)).2 (Engine.step ⟨m.config, ks⟩ g x).2 := by
  have hlength : n < m.gestures.length := by
    simpa [shownGestures] using (List.getElem?_eq_some_iff.mp hg).1
  have hends := call_agree hb rfl x m g (stands_self h hkept hg)
  rw [Engine.step]
  generalize (Engine.perform ⟨m.config, ks⟩ x).run g = expected at hends ⊢
  cases hcall : (call b n x).run m with
  | error f after =>
    rw [hcall] at hends
    cases hends with
    | error _ hstands =>
      rw [step_call_of_error hlength hcall]
      exact ⟨rfl, hstands⟩
  | ok r after =>
    rw [hcall] at hends
    cases hends with
    | ok hr hstands =>
      subst hr
      obtain ⟨kept, hk, hstep⟩ := step_call_of_ok hb hlength hcall hstands.kept
      rw [hstep]
      exact ⟨rfl, hstands.withKept hk⟩

theorem step_begin_session (h : m.Apart) (hkept : K m.kept) :
    (step b m .begin).1 = ((m.session ks).step .begin).1 ∧
      (step b m .begin).2.session ks = ((m.session ks).step .begin).2.1 ∧
      m.Keeps K (step b m .begin).2 := by
  have hstep : step b m .begin = (.handle m.gestures.length,
      m.withGestures (m.gestures ++ [⟨m.config.dpi, .capturing, []⟩])) := rfl
  rw [hstep, Session.step_begin]
  refine ⟨?_, ?_, rfl, rfl, apart_begin h, hkept⟩
  · simp [session, shownGestures]
  · simp [session, shownGestures, withGestures, Memory.config, shown, Engine.beginGesture,
      Gesture.empty]

theorem step_call_of_none (hn : m.shownGestures[n]? = none) (x : Call) :
    step b m (.call n x) = (.unknownHandle, m) := by
  have hlength : ¬ n < m.gestures.length := by simpa [shownGestures] using hn
  simp only [step, perform, EStateM.run_bind, EStateM.run_get, if_neg hlength]
  rfl

/-- A command answers as in a session of gestures that share nothing, and leaves the same
gestures. -/
theorem step_session (hb : b.Steady K m.config ks) (h : m.Apart) (hkept : K m.kept) (x : Command) :
    (step b m x).1 = ((m.session ks).step x).1 ∧
      (step b m x).2.session ks = ((m.session ks).step x).2.1 ∧ m.Keeps K (step b m x).2 := by
  cases x with
  | begin => exact step_begin_session h hkept
  | call n x =>
    cases hg : m.shownGestures[n]? with
    | none =>
      rw [step_call_of_none hg, Session.step_call_of_none (s := m.session ks) hg]
      exact ⟨rfl, rfl, rfl, rfl, h, hkept⟩
    | some g =>
      obtain ⟨hreply, hstands⟩ := step_call_stands hb h hkept hg x
      rw [Session.step_call (s := m.session ks) hg]
      refine ⟨hreply, ?_, hstands.keeps⟩
      have hdeaf : ∀ r : Reply α, (Session.inform .absent r).1 = .absent := by
        intro r
        cases r <;> rfl
      rw [session, hstands.config, hstands.gestures]
      exact congrArg (Session.mk _ _) (hdeaf _).symm

/-- Over any commands the gestures of a memory fare as in a session of gestures that share
nothing. -/
theorem run_session (hb : b.Steady K m.config ks) (h : m.Apart) (hkept : K m.kept)
    (cs : List Command) :
    (run b m cs).1 = ((m.session ks).run cs).1 ∧
      (run b m cs).2.shownGestures = ((m.session ks).run cs).2.1.handles ∧
      m.Keeps K (run b m cs).2 := by
  induction cs generalizing m with
  | nil => exact ⟨rfl, rfl, rfl, rfl, h, hkept⟩
  | cons c cs ih =>
    obtain ⟨hresponse, hsession, hkeeps⟩ := step_session hb h hkept c
    obtain ⟨hresponses, hgestures, hrest⟩ := ih (hkeeps.config ▸ hb) hkeeps.apart hkeeps.kept
    rw [hsession] at hresponses hgestures
    exact ⟨congrArg₂ List.cons hresponse hresponses, hgestures, hkeeps.trans hrest⟩

/-- A memory in which no gesture has been begun. -/
structure New (K : κ → Prop) (m : Memory α κ) : Prop where
  gestures : m.gestures = []
  kept : K m.kept

omit [Scalar α] in
theorem New.apart (h : m.New K) : m.Apart := by
  refine ⟨?_, ?_, ?_⟩ <;> simp [h.gestures]

omit [Scalar α] in
theorem New.session (h : m.New K) : m.session ks = Session.start ⟨m.config, ks⟩ .absent := by
  rw [Memory.session, shownGestures, h.gestures]
  rfl

/-- Over any commands on any number of gestures in one memory, with steady classifiers that keep
what they like, no step writes to the configuration or its tables, and no stroke comes to be that of
two gestures. Each handle gets the number of gestures begun before it, and only calls on handles that
are not there yet go unanswered. The calls on one handle have the replies that they have when they
are made alone, after one another, in any new memory with the same configuration and the same
classifiers, whatever these have kept before and whatever listens, and they leave the same
gesture. -/
theorem gestures_independent {other : Callbacks α κ} (hb : b.Steady K m.config ks)
    (ho : other.Steady K m.config ks) {fresh : Memory α κ} (hm : m.New K)
    (hfresh : fresh.New K) (hconfig : fresh.config = m.config) (cs : List Command) :
    let responses := (run b m cs).1
    let last := (run b m cs).2
    (last.shelf = m.shelf ∧ last.settings = m.settings ∧ last.Apart) ∧
    last.gestures.length = cs.countP Command.isBegin ∧ responses.length = cs.length ∧
    (∀ (i : Nat) (c : Command) (r : Response α), (cs.zip responses)[i]? = some (c, r) →
      r.Answers ((cs.take i).countP Command.isBegin) c) ∧
    ∀ (n : Nat) (g : Gesture α), last.shownGestures[n]? = some g →
      let talk := exchanges n (cs.zip responses)
      let alone := run other fresh (.begin :: talk.map fun x => .call 0 x.1)
      alone.1 = .handle 0 :: talk.map (fun x => .reply x.2) ∧ alone.2.shownGestures = [g] := by
  intro responses last
  obtain ⟨hresponses, hgestures, hkeeps⟩ := run_session hb hm.apart hm.kept cs
  rw [hm.session] at hresponses hgestures
  obtain ⟨_, hhandles, hlength, hanswers, hindependent⟩ :=
    Session.handles_independent ⟨m.config, ks⟩ .absent .absent cs
  have hcount : last.gestures.length = last.shownGestures.length := by simp [shownGestures]
  rw [← hresponses] at hlength hanswers hindependent
  rw [← hgestures] at hhandles hindependent
  refine ⟨⟨hkeeps.shelf, hkeeps.settings, hkeeps.apart⟩, hcount.trans hhandles, hlength, hanswers,
    fun n g hg => ?_⟩
  obtain ⟨hreplies, hleft⟩ := hindependent n g hg
  obtain ⟨haloneReplies, haloneGestures, _⟩ := run_session (hconfig ▸ ho) hfresh.apart hfresh.kept
    (.begin :: (exchanges n (cs.zip responses)).map fun x => .call 0 x.1)
  rw [hfresh.session, hconfig] at haloneReplies haloneGestures
  exact ⟨haloneReplies.trans hreplies, haloneGestures.trans hleft⟩

end Memory

/-- A classifier that keeps count of how often it is asked. -/
def Classifier.counting (k : Classifier α) : Program α Nat where
  tag := fun _ => k.tag
  feature := fun _ => k.feature
  answer := fun ev n place => do
    modify fun m => m.withKept (m.kept + 1)
    k.program.answer ev n place

theorem Classifier.steady_counting (c : Config α) (k : Classifier α) :
    k.counting.Steady (fun _ => True) c k where
  tag := fun _ _ => rfl
  feature := fun _ _ => rfl
  answer := by
    intro m ev n place seen _ hc hseen
    obtain ⟨kept, _, hrun⟩ := (steady_program (fun _ => True) c k).answer
      (m.withKept (m.kept + 1)) ev trivial hc hseen
    exact ⟨kept, trivial, hrun⟩

namespace Memory

def counterMemory (kept : Nat) : Memory Float Nat :=
  start Engine.contactCounter.config kept

def countedBy (hear : Verdict Float → Steps (Memory Float Nat) Unit) : Callbacks Float Nat :=
  ⟨[Variant.pointerCount.classifier.counting], hear⟩

/-- A listener that leaves a mark and fails. -/
def failsMarked (_ : Verdict Float) : Steps (Memory Float Nat) Unit := do
  modify fun m => m.withKept (m.kept + 100)
  throw .noSpace

private def tap (id : Int) (x : Float) : Call :=
  .point (.int id) ⟨.atom (.float x), .atom (.float 0.5), .int 0, .null⟩

/-- Two gestures in turns: one contact on the first, two on the second, and a contact too late on
the first. -/
def inCompany : List Command :=
  [.begin, .call 0 (tap 1 1.5), .begin, .call 1 (tap 1 2.5), .call 1 (tap 2 3.5),
    .call 0 .evaluate, .call 0 (tap 2 4.5), .call 1 .evaluate]

/-- The second of these gestures. -/
def onItsOwn : List Command :=
  [.begin, .call 0 (tap 1 2.5), .call 0 (tap 2 3.5), .call 0 .evaluate]

theorem steady_countedBy {hear : Verdict Float → Steps (Memory Float Nat) Unit} (c : Config Float)
    (h : ∀ v m, ∃ (r : Except Fault Unit) (kept : Nat),
      (hear v).run m = (Steps.of r).run (m.withKept kept)) :
    (countedBy hear).Steady (fun _ => True) c [Variant.pointerCount.classifier] where
  classifiers := .cons (Classifier.steady_counting c _) .nil
  hear := by
    intro v m _
    obtain ⟨r, kept, hrun⟩ := h v m
    exact ⟨r, kept, trivial, hrun⟩

theorem new_counterMemory (kept : Nat) : (counterMemory kept).New fun _ => True :=
  ⟨rfl, trivial⟩

/-- The second gesture is judged as it is alone, where another listener hears of it and the
classifier has been asked before. The classifier has been asked three times, and two verdicts have
left their mark. -/
theorem independent_inCompany :
    (countedBy failsMarked).Steady (fun _ => True) (counterMemory 0).config
      [Variant.pointerCount.classifier] ∧
    (run (countedBy failsMarked) (counterMemory 0) inCompany).2.kept = 203 ∧
    (run (countedBy failsMarked) (counterMemory 0) inCompany).2.shelf = (counterMemory 0).shelf ∧
    (run (countedBy failsMarked) (counterMemory 0) inCompany).2.Apart ∧
    ∃ v g, exchanges 1 (inCompany.zip (run (countedBy failsMarked) (counterMemory 0)
        inCompany).1) = [(tap 1 2.5, .done), (tap 2 3.5, .done), (.evaluate, .verdict v)] ∧
      (run (countedBy failsMarked) (counterMemory 0) inCompany).2.shownGestures[1]? = some g ∧
      (run (countedBy fun _ => pure ()) (counterMemory 7) onItsOwn).1 =
        [.handle 0, .reply .done, .reply .done, .reply (.verdict v)] ∧
      (run (countedBy fun _ => pure ()) (counterMemory 7) onItsOwn).2.shownGestures = [g] := by
  have hb : (countedBy failsMarked).Steady (fun _ => True) (counterMemory 0).config
      [Variant.pointerCount.classifier] :=
    steady_countedBy _ fun _ m => ⟨.error .noSpace, m.kept + 100, rfl⟩
  have ho : (countedBy fun _ => pure ()).Steady (fun _ => True) (counterMemory 0).config
      [Variant.pointerCount.classifier] :=
    steady_countedBy _ fun _ m => ⟨.ok (), m.kept, rfl⟩
  obtain ⟨⟨hshelf, _, hapart⟩, _, _, _, hindependent⟩ :=
    gestures_independent hb ho (new_counterMemory 0) (new_counterMemory 7) rfl inCompany
  obtain ⟨g, hg⟩ : ∃ g, (run (countedBy failsMarked) (counterMemory 0)
      inCompany).2.shownGestures[1]? = some g := ⟨_, rfl⟩
  obtain ⟨v, htalk⟩ : ∃ v, exchanges 1 (inCompany.zip (run (countedBy failsMarked)
      (counterMemory 0) inCompany).1) =
        [(tap 1 2.5, .done), (tap 2 3.5, .done), (.evaluate, .verdict v)] := ⟨_, rfl⟩
  have halone := hindependent 1 g hg
  simp only [htalk, List.map_cons, List.map_nil] at halone
  exact ⟨hb, by decide +kernel, hshelf, hapart, v, g, htalk, hg, halone.1, halone.2⟩

/-- A classifier that answers how often it has been asked. -/
def asked : Program Float Nat where
  tag := fun _ => .text "PTR"
  feature := fun _ => .text "pointer_count"
  answer := fun _ _ _ => do
    modify fun m => m.withKept (m.kept + 1)
    return .value (.int (← get).kept)

/-- With a classifier that is not steady, of two gestures of the same calls one is accepted and the
other one rejected. -/
theorem interference_of_asked :
    (run ⟨[asked], fun _ => pure ()⟩ (counterMemory 0)
      [.begin, .call 0 (tap 1 1.5), .call 0 .evaluate,
        .begin, .call 1 (tap 1 1.5), .call 1 .evaluate]).1.filterMap (fun
          | .reply (.verdict v) => some v.decision
          | _ => none) = [.accept, .reject] := by
  decide +kernel

end Memory

end StrayTouch
