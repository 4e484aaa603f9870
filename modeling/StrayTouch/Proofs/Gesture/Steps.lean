import StrayTouch.Gesture.Steps
import StrayTouch.Proofs.Keyed
import StrayTouch.Proofs.Outcome

/-!
What the steps on strokes and gestures come to: each operation either makes the gesture that
`Gesture.addPoint`, `Gesture.endStroke` or `Gesture.cancel` gives, or fails with the fault that
these give and leaves the gesture as it found it.
-/
namespace StrayTouch

variable {σ β γ : Type}

namespace Steps

/-- The end of steps that make a new state or fail and leave the old one. -/
def allOrNothing (s : σ) : Except Fault σ → EStateM.Result Fault σ Unit
  | .ok after => .ok () after
  | .error f => .error f s

@[simp] theorem run_of_ok (x : β) (s : σ) : (of (.ok x) : Steps σ β).run s = .ok x s := rfl

@[simp] theorem run_of_error (f : Fault) (s : σ) :
    (of (.error f) : Steps σ β).run s = .error f s := rfl

@[simp] theorem run_throw (f : Fault) (s : σ) :
    (throw f : Steps σ β).run s = .error f s := rfl

@[simp] theorem run_attempt_of_ok {m : Steps σ β} {x : β} {s after : σ}
    (h : m.run s = .ok x after) : (attempt m).run s = .ok (some x) after := by
  simp only [attempt, EStateM.run] at h ⊢
  rw [h]

@[simp] theorem run_attempt_of_error {m : Steps σ β} {f : Fault} {s after : σ}
    (h : m.run s = .error f after) : (attempt m).run s = .ok none after := by
  simp only [attempt, EStateM.run] at h ⊢
  rw [h]

end Steps

open Steps (allOrNothing)

variable {α : Type}

theorem Stroke.take_run [Scalar α] (p : Point α) (s : Stroke α) :
    (take p).run s = allOrNothing s (s.append p) := by
  unfold take append
  by_cases hf : s.frozen = true
  · simp [hf, allOrNothing]
  by_cases hp : p.isFinite = true
  · cases hl : s.points.getLast? with
    | none => simp [hf, hp, hl, allOrNothing]
    | some last =>
      by_cases ht : p.time < last.time <;> simp [hf, hp, hl, ht, allOrNothing]
  · simp [hf, hp, allOrNothing]

theorem Stroke.madeOf_take [Scalar α] (p : Point α) (s : Stroke α) :
    (take p).madeOf s = s.append p := by
  rw [Steps.madeOf, take_run]
  cases s.append p <;> rfl

namespace Gesture

variable {g : Gesture α} {key : Name} {s : Stroke α}

theorem putStroke_self (h : g.stroke? key = some s) : g.putStroke key s = g := by
  rw [putStroke, Keyed.put_of_get? h]

theorem onStroke_run {m : Steps (Stroke α) Unit} {r : Except Fault (Stroke α)}
    (h : g.stroke? key = some s) (hm : m.run s = allOrNothing s r) :
    (onStroke key s m).run g = allOrNothing g (r.map (g.putStroke key)) := by
  unfold onStroke
  simp only [EStateM.run] at hm ⊢
  rw [hm]
  cases r with
  | ok after => rfl
  | error f => simp [allOrNothing, Except.map, putStroke_self h]

theorem takePoint_run [Scalar α] (g : Gesture α) (id : Value) (sample : Sample) :
    (takePoint id sample).run g = allOrNothing g (g.addPoint id sample) := by
  unfold takePoint addPoint
  simp only [EStateM.run_bind, EStateM.run_get]
  cases g.requireCapturing with
  | error f => rfl
  | ok _ =>
  cases (sample.toPoint : Except Fault (Point α)) with
  | error f => rfl
  | ok point =>
  cases id.toName with
  | error f => rfl
  | ok key =>
  simp only [Steps.run_of_ok, ok_bind]
  cases hs : g.stroke? key with
  | some s =>
    rw [Option.getD_some, onStroke_run hs (Stroke.take_run point s)]
    cases s.append point <;> rfl
  | none =>
    rw [Option.getD_none, EStateM.run_bind, Stroke.madeOf_take]
    cases (Stroke.empty g.dpi).append point <;> rfl

theorem liftContact_run [Scalar α] (g : Gesture α) (id : Value) :
    (liftContact id).run g = allOrNothing g (g.endStroke id) := by
  unfold liftContact endStroke
  simp only [EStateM.run_bind, EStateM.run_get]
  cases g.requireCapturing with
  | error f => rfl
  | ok _ =>
  cases id.toName with
  | error f => rfl
  | ok key =>
  simp only [Steps.run_of_ok, ok_bind]
  cases hs : g.stroke? key with
  | some s => exact onStroke_run hs (r := .ok s.freeze) rfl
  | none => rfl

theorem giveUp_run (g : Gesture α) : giveUp.run g = allOrNothing g g.cancel := by
  unfold giveUp cancel
  by_cases h : g.phase = .decided <;> simp [h, allOrNothing]

end Gesture

end StrayTouch
