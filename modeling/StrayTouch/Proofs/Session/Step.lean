import StrayTouch.Engine.Session
import StrayTouch.Proofs.Gesture.Steps

/-!
One command of a session, opened. A call is a step of the engine on the gesture of its handle,
which leaves all other gestures alone, and of a verdict the listener hears before it is delivered.
-/
namespace StrayTouch

variable {α : Type} [Scalar α]

namespace Listener

theorem take_run (l : Listener) (r : Report) :
    (take r).run l =
      match (l.hear r).1 with
      | .ok () => .ok () (l.hear r).2.1
      | .error f => .error f (l.hear r).2.1 := by
  simp only [take, EStateM.run]
  obtain ⟨answer, after, records⟩ := l.hear r
  cases answer <;> rfl

end Listener

namespace Session

variable {s : Session α} {n : Nat} {g : Gesture α}

theorem inform_fst_verdict (l : Listener) (v : Verdict α) :
    (inform l (.verdict v)).1 = (l.hear v.report).2.1 := by
  simp only [inform]
  obtain ⟨answer, after, records⟩ := l.hear v.report
  cases answer <;> rfl

/-- Reporting a verdict cannot fail, whatever the listener does, and touches nothing else. -/
theorem report_run (s : Session α) (v : Verdict α) :
    ∃ answer, (Steps.attempt (onListener (Listener.take v.report))).run s =
      .ok answer ⟨s.engine, s.handles, (inform s.listener (.verdict v)).1⟩ := by
  have htake := s.listener.take_run v.report
  rw [inform_fst_verdict]
  cases ha : (s.listener.hear v.report).1 with
  | ok u =>
    rw [ha] at htake
    refine ⟨some (), Steps.run_attempt_of_ok ?_⟩
    simp only [onListener, EStateM.run] at htake ⊢
    rw [htake]
  | error f =>
    rw [ha] at htake
    refine ⟨none, Steps.run_attempt_of_error (f := f) ?_⟩
    simp only [onListener, EStateM.run] at htake ⊢
    rw [htake]

theorem step_begin (s : Session α) :
    s.step .begin =
      (.handle s.handles.length, ⟨s.engine, s.handles ++ [s.engine.beginGesture], s.listener⟩,
        []) := rfl

theorem step_call_of_none (h : s.handles[n]? = none) (c : Call) :
    s.step (.call n c) = (.unknownHandle, s, []) := by
  have hrun : (onHandle n (s.engine.perform c)).run s = .ok none s := by
    simp only [onHandle, EStateM.run, h]
  simp only [step, perform, EStateM.run_bind, EStateM.run_get, hrun]
  rfl

/-- A call on a gesture that has been begun is a step of the engine on it. -/
theorem step_call (h : s.handles[n]? = some g) (c : Call) :
    s.step (.call n c) =
      (.reply (s.engine.step g c).1,
        ⟨s.engine, s.handles.set n (s.engine.step g c).2,
          (inform s.listener (s.engine.step g c).1).1⟩,
        s.trace (.call n c) (.reply (s.engine.step g c).1)) := by
  cases hm : (s.engine.perform c).run g with
  | error f after =>
    have hstep : s.engine.step g c = (.refused f, after) := by rw [Engine.step, hm]
    have hrun : (onHandle n (s.engine.perform c)).run s =
        .error f ⟨s.engine, s.handles.set n after, s.listener⟩ := by
      simp only [onHandle, EStateM.run, h] at hm ⊢
      rw [hm]
    simp only [step, perform, EStateM.run_bind, EStateM.run_get, hrun, hstep]
    rfl
  | ok reply after =>
    have hstep : s.engine.step g c = (reply, after) := by rw [Engine.step, hm]
    have hrun : (onHandle n (s.engine.perform c)).run s =
        .ok (some reply) ⟨s.engine, s.handles.set n after, s.listener⟩ := by
      simp only [onHandle, EStateM.run, h] at hm ⊢
      rw [hm]
    simp only [step, perform, EStateM.run_bind, EStateM.run_get, hrun, hstep]
    cases reply with
    | verdict v =>
      obtain ⟨answer, hreport⟩ :=
        report_run ⟨s.engine, s.handles.set n after, s.listener⟩ v
      simp only [EStateM.run_bind, hreport]
      rfl
    | done => rfl
    | refused f => rfl

end Session

end StrayTouch
