import StrayTouch.Proofs.Engine.Step

/-!
The life of a handle. Between calls a gesture is open or decided, the first evaluation or
cancellation that succeeds decides it, and a decided gesture refuses every call and keeps its
strokes. A call that is refused leaves no trace, so that a run is the run of its successful calls.
-/
namespace StrayTouch

variable {α : Type}

def Call.decides : Call → Bool
  | evaluate => true
  | cancel => true
  | _ => false

/-- Between calls a gesture is open, or decided with all its strokes frozen. -/
def Gesture.Settled (g : Gesture α) : Prop :=
  g.phase = .capturing ∨ g.phase = .decided ∧ ∀ s ∈ g.strokes, s.frozen = true

theorem Gesture.Settled.of_frozen (g : Gesture α) :
    (g.freezeAll.withPhase .decided).Settled :=
  .inr ⟨rfl, fun _ hs => frozen_of_mem_freezeAll (by simpa using hs)⟩

namespace Engine

variable [Scalar α] {e : Engine α} {g after : Gesture α} {c : Call} {r : Reply α}

namespace Effect

theorem settled (h : Effect e g c r after) (hg : g.Settled) : after.Settled := by
  cases h with
  | refused f => exact hg
  | point h =>
    obtain ⟨hc, _, _, _, _, _, _, rfl⟩ := Gesture.addPoint_eq_ok_iff.mp h
    exact .inl hc
  | up h =>
    obtain ⟨hc, _, _, _, _, rfl⟩ := Gesture.endStroke_eq_ok_iff.mp h
    exact .inl hc
  | cancel hd => exact .of_frozen g
  | evaluate hc h => exact .of_frozen g

theorem phase_ne_iff (h : Effect e g c r after) :
    after.phase ≠ g.phase ↔ c.decides = true ∧ r.succeeds = true := by
  cases h with
  | refused f => simp
  | point h =>
    obtain ⟨_, _, _, _, _, _, _, rfl⟩ := Gesture.addPoint_eq_ok_iff.mp h
    simp [Call.decides]
  | up h =>
    obtain ⟨_, _, _, _, _, rfl⟩ := Gesture.endStroke_eq_ok_iff.mp h
    simp [Call.decides]
  | cancel hd => simpa [Call.decides] using fun he => hd he.symm
  | evaluate hc h => simp [Call.decides, hc]

theorem decided_of_phase_ne (h : Effect e g c r after) (hg : g.Settled)
    (hne : after.phase ≠ g.phase) : g.phase = .capturing ∧ after.phase = .decided := by
  obtain ⟨hc, hr⟩ := h.phase_ne_iff.mp hne
  cases h with
  | refused f => cases hr
  | point h => cases hc
  | up h => cases hc
  | cancel hd => exact ⟨hg.resolve_right fun hg => hd hg.1, rfl⟩
  | evaluate hp h => exact ⟨hp, rfl⟩

theorem capturing_of_isVerdict (h : Effect e g c r after) (hr : r.isVerdict = true) :
    g.phase = .capturing ∧ after.phase = .decided := by
  cases h with
  | evaluate hc h => exact ⟨hc, rfl⟩
  | _ => cases hr

theorem eq_of_refused {f : Fault} (h : Effect e g c (.refused f) after) : after = g := by
  cases h
  rfl

end Effect

/-- A decided gesture refuses every call: the order of calls is broken, unless an evaluation finds
before that the panel cannot be built. -/
theorem step_of_decided (e : Engine α) (hd : g.phase = .decided) (c : Call) :
    ∃ f, e.step g c = (.refused f, g) ∧
      (f.kind = .precondition ∨
        c = .evaluate ∧ Member.panel e.config e.classifiers = .error f) := by
  have hc : g.requireCapturing = .error (.notCapturing .decided) := by
    rw [Gesture.requireCapturing_of_ne (by simp [hd]), hd]
  cases c with
  | point id sample =>
    refine ⟨.notCapturing .decided, ?_, .inl rfl⟩
    rw [step_point, Gesture.addPoint, hc]
    rfl
  | up id =>
    refine ⟨.notCapturing .decided, ?_, .inl rfl⟩
    rw [step_up, Gesture.endStroke, hc]
    rfl
  | cancel =>
    refine ⟨.alreadyDecided, ?_, .inl rfl⟩
    rw [step_cancel, Gesture.cancel, if_pos hd]
  | evaluate =>
    cases hp : Member.panel e.config e.classifiers with
    | error f =>
      refine ⟨f, ?_, .inr ⟨rfl, rfl⟩⟩
      rw [step_evaluate, evaluate, judge, hp]
      rfl
    | ok panel =>
      refine ⟨.notEvaluable .decided, ?_, .inl rfl⟩
      rw [step_evaluate, evaluate, judge, hp]
      simp [Gesture.beginEvaluation, hd]

theorem run_of_decided (e : Engine α) (hd : g.phase = .decided) (calls : List Call) :
    (e.run g calls).2 = g ∧ ∀ r ∈ (e.run g calls).1, r.succeeds = false := by
  induction calls with
  | nil => simp [run]
  | cons c calls ih =>
    obtain ⟨f, hf, _⟩ := e.step_of_decided hd c
    simp only [run, hf, List.mem_cons, forall_eq_or_imp]
    exact ⟨ih.1, rfl, ih.2⟩

theorem run_settled (e : Engine α) (hg : g.Settled) (calls : List Call) :
    (e.run g calls).2.Settled := by
  induction calls generalizing g with
  | nil => exact hg
  | cons c calls ih => exact ih ((e.step_effect g c).settled hg)

/-- A run ends decided exactly when one of its calls has decided the gesture. -/
theorem run_phase_eq_decided_iff (e : Engine α) (hg : g.phase = .capturing) (calls : List Call) :
    (e.run g calls).2.phase = .decided ↔
      ∃ x ∈ calls.zip (e.run g calls).1, x.1.decides = true ∧ x.2.succeeds = true := by
  induction calls generalizing g with
  | nil => simp [run, hg]
  | cons c calls ih =>
    have h := e.step_effect g c
    simp only [run, List.zip_cons_cons, List.exists_mem_cons_iff]
    by_cases hne : (e.step g c).2.phase = g.phase
    · have hx := mt h.phase_ne_iff.mpr (not_not.mpr hne)
      rw [ih (hne.trans hg)]
      simp only [hx, false_or]
    · have hx := h.phase_ne_iff.mp hne
      have hd := (h.decided_of_phase_ne (.inl hg) hne).2
      rw [(e.run_of_decided hd calls).1]
      simp only [hd, hx, and_self, true_or]

theorem run_countP_isVerdict_le (e : Engine α) (g : Gesture α) (calls : List Call) :
    (e.run g calls).1.countP Reply.isVerdict ≤ 1 := by
  induction calls generalizing g with
  | nil => simp [run]
  | cons c calls ih =>
    simp only [run, List.countP_cons]
    cases hv : (e.step g c).1.isVerdict with
    | false => simpa using ih (e.step g c).2
    | true =>
      have hd := ((e.step_effect g c).capturing_of_isVerdict hv).2
      have hz : (e.run (e.step g c).2 calls).1.countP Reply.isVerdict = 0 := by
        rw [List.countP_eq_zero]
        intro r hr hrv
        have hs := (e.run_of_decided hd calls).2 r hr
        obtain ⟨f, rfl⟩ := Reply.succeeds_eq_false_iff.mp hs
        cases hrv
      simp [hz]

/-- The life of a handle over any run and any call after it: open or decided in between, decided
by the first evaluation or cancellation that succeeds, with at most one verdict and none after a
cancellation, and from the decision on as it is. -/
theorem handle_decided_once (e : Engine α) (calls : List Call) (next : Call) :
    let replies := (e.run e.beginGesture calls).1
    let g := (e.run e.beginGesture calls).2
    let reply := (e.step g next).1
    let after := (e.step g next).2
    (g.phase = .capturing ∨ g.phase = .decided) ∧
    (g.phase = .decided ↔
      ∃ x ∈ calls.zip replies, x.1.decides = true ∧ x.2.succeeds = true) ∧
    (after.phase ≠ g.phase ↔ next.decides = true ∧ reply.succeeds = true) ∧
    (after.phase ≠ g.phase → g.phase = .capturing ∧ after.phase = .decided) ∧
    replies.countP Reply.isVerdict ≤ 1 ∧
    ((∃ x ∈ calls.zip replies, x.1 = .cancel ∧ x.2.succeeds = true) →
      reply.isVerdict = false) ∧
    (g.phase = .decided →
      (∀ s ∈ g.strokes, s.frozen = true) ∧
      (∃ f, reply = .refused f ∧
        (f.kind = .precondition ∨
          next = .evaluate ∧ Member.panel e.config e.classifiers = .error f)) ∧
      after = g ∧
      ∀ more, (e.run g more).2 = g ∧ ∀ r ∈ (e.run g more).1, r.succeeds = false) := by
  intro replies g reply after
  have hg : g.Settled := e.run_settled (.inl rfl) calls
  have hd : g.phase = .decided ↔
      ∃ x ∈ calls.zip replies, x.1.decides = true ∧ x.2.succeeds = true :=
    e.run_phase_eq_decided_iff rfl calls
  have h : Effect e g next reply after := e.step_effect g next
  refine ⟨hg.imp_right And.left, hd, h.phase_ne_iff, h.decided_of_phase_ne hg,
    e.run_countP_isVerdict_le e.beginGesture calls, ?_, ?_⟩
  · rintro ⟨x, hx, hc, hs⟩
    have hp : g.phase = .decided := hd.mpr ⟨x, hx, by rw [hc, Call.decides], hs⟩
    rw [← Bool.not_eq_true]
    intro hv
    rw [(h.capturing_of_isVerdict hv).1] at hp
    cases hp
  · intro hp
    obtain ⟨f, hf, hk⟩ := e.step_of_decided hp next
    have hfrozen := hg.resolve_left fun hc => by rw [hp] at hc; cases hc
    exact ⟨hfrozen.2, ⟨f, congrArg Prod.fst hf, hk⟩, congrArg Prod.snd hf, e.run_of_decided hp⟩

/-- The calls of a run that succeed. -/
def accepted (e : Engine α) (g : Gesture α) (calls : List Call) : List Call :=
  ((calls.zip (e.run g calls).1).filter fun x => x.2.succeeds).map Prod.fst

theorem accepted_cons (e : Engine α) (g : Gesture α) (c : Call) (calls : List Call) :
    e.accepted g (c :: calls) =
      if (e.step g c).1.succeeds then c :: e.accepted (e.step g c).2 calls
      else e.accepted (e.step g c).2 calls := by
  simp only [accepted, run, List.zip_cons_cons, List.filter_cons]
  split <;> rfl

theorem run_accepted (e : Engine α) (g : Gesture α) (calls : List Call) :
    e.run g (e.accepted g calls) =
      ((e.run g calls).1.filter Reply.succeeds, (e.run g calls).2) := by
  induction calls generalizing g with
  | nil => rfl
  | cons c calls ih =>
    rw [accepted_cons]
    cases hs : (e.step g c).1.succeeds with
    | true => simp [run, ih, hs]
    | false =>
      obtain ⟨f, hf⟩ := Reply.succeeds_eq_false_iff.mp hs
      have hg : (e.step g c).2 = g := Effect.eq_of_refused (hf ▸ e.step_effect g c)
      simp [run, hs, hg, ih]

/-- A refused call leaves the gesture as it was, and the successful calls of a run give the same
replies and the same gesture without the refused ones. An evaluation without a stroke or without a
panel is refused, and the gesture stays open. -/
theorem refused_calls_leave_no_trace (e : Engine α) (g : Gesture α) :
    (∀ c f, (e.step g c).1 = .refused f → (e.step g c).2 = g) ∧
    (∀ calls, e.run g (e.accepted g calls) =
      ((e.run g calls).1.filter Reply.succeeds, (e.run g calls).2)) ∧
    (g.phase = .capturing →
      (g.strokeCount = 0 ∨ ∃ f, Member.panel e.config e.classifiers = .error f) →
      ∃ f, e.step g .evaluate = (.refused f, g)) := by
  refine ⟨fun c f hf => Effect.eq_of_refused (hf ▸ e.step_effect g c), e.run_accepted g, ?_⟩
  intro hc hr
  cases h : e.evaluate g with
  | error f => exact ⟨f, by rw [step_evaluate, h]⟩
  | ok p =>
    obtain ⟨panel, hp, _, hs, _⟩ := evaluate_eq_ok_iff.mp h
    rcases hr with hz | ⟨f, hf⟩
    · exact absurd hz hs
    · rw [hf] at hp
      cases hp

end Engine

end StrayTouch
