import StrayTouch.Proofs.Engine.Evaluation
import StrayTouch.Proofs.Gesture.Basic

/-!
One call on the handle of a gesture. `Engine.Effect` lists all that a call can do; a call that is
refused does nothing.
-/
namespace StrayTouch

variable {α : Type}

namespace Reply

def succeeds : Reply α → Bool
  | refused _ => false
  | _ => true

def isVerdict : Reply α → Bool
  | verdict _ => true
  | _ => false

def verdict? : Reply α → Option (Verdict α)
  | verdict v => some v
  | _ => none

@[simp] theorem succeeds_done : (done : Reply α).succeeds = true := rfl

@[simp] theorem succeeds_verdict (v : Verdict α) : (verdict v).succeeds = true := rfl

@[simp] theorem succeeds_refused (f : Fault) : (refused f : Reply α).succeeds = false := rfl

theorem eq_verdict_of_verdict? {r : Reply α} {v : Verdict α} (h : r.verdict? = some v) :
    r = verdict v := by
  cases r <;> simp_all [verdict?]

theorem succeeds_eq_false_iff {r : Reply α} : r.succeeds = false ↔ ∃ f, r = refused f := by
  cases r <;> simp

end Reply

namespace Engine

variable [Scalar α]

/-- What a call does: nothing if it is refused, and otherwise what the operation of that name
does. -/
inductive Effect (e : Engine α) (g : Gesture α) : Call → Reply α → Gesture α → Prop
  | refused (c : Call) (f : Fault) : Effect e g c (.refused f) g
  | point {id : Value} {sample : Sample} {after : Gesture α}
      (h : g.addPoint id sample = .ok after) : Effect e g (.point id sample) .done after
  | up {id : Value} {after : Gesture α}
      (h : g.endStroke id = .ok after) : Effect e g (.up id) .done after
  | cancel (h : g.phase ≠ .decided) :
      Effect e g .cancel .done (g.freezeAll.withPhase .decided)
  | evaluate {v : Verdict α} (hc : g.phase = .capturing)
      (h : e.evaluate g = .ok (v, g.freezeAll.withPhase .decided)) :
      Effect e g .evaluate (.verdict v) (g.freezeAll.withPhase .decided)

private def settled (g : Gesture α) : Except Fault (Gesture α) → Reply α × Gesture α
  | .ok after => (.done, after)
  | .error f => (.refused f, g)

private theorem step_of_run {e : Engine α} {g : Gesture α} {c : Call}
    {m : Steps (Gesture α) Unit} {r : Except Fault (Gesture α)}
    (hc : e.perform c = (do m; return .done)) (hm : m.run g = Steps.allOrNothing g r) :
    e.step g c = settled g r := by
  rw [step, hc, EStateM.run_bind, hm]
  cases r <;> rfl

theorem step_point (e : Engine α) (g : Gesture α) (id : Value) (sample : Sample) :
    e.step g (.point id sample) =
      match g.addPoint id sample with
      | .ok after => (.done, after)
      | .error f => (.refused f, g) :=
  step_of_run rfl (g.takePoint_run id sample)

theorem step_up (e : Engine α) (g : Gesture α) (id : Value) :
    e.step g (.up id) =
      match g.endStroke id with
      | .ok after => (.done, after)
      | .error f => (.refused f, g) :=
  step_of_run rfl (g.liftContact_run id)

theorem step_cancel (e : Engine α) (g : Gesture α) :
    e.step g .cancel =
      match g.cancel with
      | .ok after => (.done, after)
      | .error f => (.refused f, g) :=
  step_of_run rfl g.giveUp_run

theorem step_evaluate (e : Engine α) (g : Gesture α) :
    e.step g .evaluate =
      match e.evaluate g with
      | .ok (v, after) => (.verdict v, after)
      | .error f => (.refused f, g) := by
  rw [step, perform, EStateM.run_bind, e.decideGesture_run g]
  cases e.evaluate g <;> rfl

theorem evaluate_eq_ok_iff {e : Engine α} {g after : Gesture α} {v : Verdict α} :
    e.evaluate g = .ok (v, after) ↔
      ∃ panel, Member.panel e.config e.classifiers = .ok panel ∧ g.phase = .capturing ∧
        g.strokeCount ≠ 0 ∧
        v = Verdict.ofJudgements e.config (panel.map Member.tag)
          (e.judgements panel (g.freezeAll.withPhase .evaluating)) ∧
        after = g.freezeAll.withPhase .decided := by
  unfold evaluate judge Gesture.beginEvaluation
  cases hp : Member.panel e.config e.classifiers with
  | error f => simp
  | ok panel =>
    by_cases hc : g.phase = .capturing
    · by_cases hs : g.strokeCount = 0
      · simp [hc, hs]
      · simp only [hc, hs, ok_bind, ne_eq, not_true_eq_false, not_false_eq_true, ↓reduceIte,
          Except.ok.injEq, Prod.mk.injEq, exists_eq_left', true_and, eq_comm]
        rfl
    · simp [hc]

theorem step_effect (e : Engine α) (g : Gesture α) (c : Call) :
    Effect e g c (e.step g c).1 (e.step g c).2 := by
  cases c with
  | point id sample =>
    rw [step_point]
    cases h : g.addPoint id sample with
    | ok after => exact .point h
    | error f => exact .refused _ f
  | up id =>
    rw [step_up]
    cases h : g.endStroke id with
    | ok after => exact .up h
    | error f => exact .refused _ f
  | evaluate =>
    rw [step_evaluate]
    cases h : e.evaluate g with
    | error f => exact .refused _ f
    | ok p =>
      obtain ⟨v, after⟩ := p
      obtain ⟨panel, _, hc, _, _, rfl⟩ := evaluate_eq_ok_iff.mp h
      exact .evaluate hc h
  | cancel =>
    rw [step_cancel]
    cases h : g.cancel with
    | error f => exact .refused _ f
    | ok after =>
      obtain ⟨hd, rfl⟩ := Gesture.cancel_eq_ok_iff.mp h
      exact .cancel hd

end Engine

end StrayTouch
