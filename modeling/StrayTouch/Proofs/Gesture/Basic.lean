import StrayTouch.Proofs.Gesture.Steps

/-!
When the operations on strokes and gestures succeed, and what they make then.
-/
namespace StrayTouch

variable {α : Type}

@[simp] theorem Gesture.phase_withPhase (g : Gesture α) (p : Phase) :
    (g.withPhase p).phase = p := rfl

@[simp] theorem Gesture.phase_putStroke (g : Gesture α) (key : Name) (s : Stroke α) :
    (g.putStroke key s).phase = g.phase := rfl

@[simp] theorem Gesture.strokes_withPhase (g : Gesture α) (p : Phase) :
    (g.withPhase p).strokes = g.strokes := rfl

@[simp] theorem Gesture.contactIds_withPhase (g : Gesture α) (p : Phase) :
    (g.withPhase p).contactIds = g.contactIds := rfl

@[simp] theorem Gesture.contactIds_freezeAll (g : Gesture α) :
    g.freezeAll.contactIds = g.contactIds := by
  simp [contactIds, freezeAll, Keyed.keys]

theorem Gesture.frozen_of_mem_freezeAll {g : Gesture α} {s : Stroke α}
    (h : s ∈ g.freezeAll.strokes) : s.frozen = true := by
  simp only [strokes, freezeAll, List.map_map, List.mem_map] at h
  obtain ⟨c, _, rfl⟩ := h
  rfl

theorem Gesture.requireCapturing_of_capturing {g : Gesture α} (h : g.phase = .capturing) :
    g.requireCapturing = .ok () := if_pos h

theorem Gesture.requireCapturing_of_ne {g : Gesture α} (h : g.phase ≠ .capturing) :
    g.requireCapturing = .error (.notCapturing g.phase) := if_neg h

/-- A stroke takes a point exactly when it is not frozen, the point is finite and the point is not
earlier than the last one. -/
theorem Stroke.append_eq_ok_iff [Scalar α] {s after : Stroke α} {p : Point α} :
    s.append p = .ok after ↔
      s.frozen = false ∧ p.isFinite = true ∧
        (∀ last, s.points.getLast? = some last → last.time ≤ p.time) ∧
        after = ⟨s.dpi, s.points ++ [p], s.frozen⟩ := by
  unfold append
  by_cases hf : s.frozen = true
  · simp [hf]
  by_cases hp : p.isFinite = true
  · cases hl : s.points.getLast? with
    | none => simp [hf, hp, eq_comm]
    | some last =>
      by_cases ht : p.time < last.time
      · simp [hf, hp, ht, Int.not_le.mpr ht]
      · simp [hf, hp, ht, Int.not_lt.mp ht, eq_comm]
  · simp [hf, hp]

theorem Gesture.addPoint_eq_ok_iff [Scalar α] {g after : Gesture α} {id : Value}
    {sample : Sample} :
    g.addPoint id sample = .ok after ↔
      g.phase = .capturing ∧ ∃ point key s, sample.toPoint = .ok point ∧ id.toName = .ok key ∧
        ((g.stroke? key).getD (Stroke.empty g.dpi)).append point = .ok s ∧
        after = g.putStroke key s := by
  unfold addPoint
  by_cases hc : g.phase = .capturing
  · cases hp : (sample.toPoint : Except Fault (Point α)) with
    | error f => simp [requireCapturing_of_capturing hc]
    | ok point =>
    cases hk : id.toName with
    | error f => simp [requireCapturing_of_capturing hc]
    | ok key =>
    cases ha : ((g.stroke? key).getD (Stroke.empty g.dpi)).append point with
    | error f => simp [requireCapturing_of_capturing hc, ha]
    | ok s => simp [requireCapturing_of_capturing hc, hc, ha, eq_comm]
  · simp [requireCapturing_of_ne hc, hc]

theorem Gesture.endStroke_eq_ok_iff [Scalar α] {g after : Gesture α} {id : Value} :
    g.endStroke id = .ok after ↔
      g.phase = .capturing ∧ ∃ key s, id.toName = .ok key ∧ g.stroke? key = some s ∧
        after = g.putStroke key s.freeze := by
  unfold endStroke
  by_cases hc : g.phase = .capturing
  · cases hk : id.toName with
    | error f => simp [requireCapturing_of_capturing hc]
    | ok key =>
    cases hs : g.stroke? key with
    | none => simp [requireCapturing_of_capturing hc, hs]
    | some s => simp [requireCapturing_of_capturing hc, hc, hs, eq_comm]
  · simp [requireCapturing_of_ne hc, hc]

theorem Gesture.cancel_eq_ok_iff {g after : Gesture α} :
    g.cancel = .ok after ↔ g.phase ≠ .decided ∧ after = g.freezeAll.withPhase .decided := by
  unfold cancel
  split <;> simp_all [eq_comm]

end StrayTouch
