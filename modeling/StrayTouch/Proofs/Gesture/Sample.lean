import StrayTouch.Gesture.Sample
import StrayTouch.Proofs.Outcome

/-!
What a sample says, without a word on how it is read: two real numbers for its position, a whole one
for its time, and perhaps a real one for its size. `Sample.toPoint` gives the point that says the
same, and gives one only where there is one.
-/
namespace StrayTouch

variable {α : Type} [Scalar α]

/-- A size as it is written after a time, if it is. Null stands for none. -/
inductive Value.WritesSize : Option Value → Option α → Prop
  | absent : WritesSize none none
  | null : WritesSize (some .null) none
  | number {v : Value} {x : α} (h : v.toReal = .ok x) : WritesSize (some v) (some x)

theorem Value.writesSize_iff {written : Option Value} {size : Option α} :
    WritesSize written size ↔
      (if (written.getD .null).isNull then .ok none
        else (written.getD .null).toReal.map some) = .ok size := by
  cases written with
  | none =>
    constructor
    · rintro ⟨⟩
      rfl
    · rintro ⟨⟩
      exact .absent
  | some v =>
    by_cases hnull : v.isNull = true
    · obtain rfl := isNull_iff.mp hnull
      constructor
      · rintro (_ | _ | h)
        · rfl
        · cases h
      · rintro ⟨⟩
        exact .null
    · rw [Option.getD_some, if_neg hnull]
      constructor
      · rintro (_ | _ | h)
        · exact absurd rfl hnull
        · rw [h]
          rfl
      · intro h
        cases hv : (v.toReal : Except Fault α) with
        | error f => rw [hv] at h; cases h
        | ok x =>
          rw [hv] at h
          cases h
          exact .number hv

theorem Value.writesSize_getD {written : Option Value} {size : Option α} :
    WritesSize (some (written.getD .null)) size ↔ WritesSize written size := by
  rw [writesSize_iff, writesSize_iff, Option.getD_some]

/-- What a sample says: where the contact was, when, and how large it was, if that is known. -/
structure Sample.Says (s : Sample) (p : Point α) : Prop where
  x : s.x.toReal = .ok p.x
  y : s.y.toReal = .ok p.y
  time : s.time.toWhole = .ok p.time
  size : Value.WritesSize (some s.size) p.size

theorem Sample.toPoint_eq_ok_iff {s : Sample} {p : Point α} : s.toPoint = .ok p ↔ s.Says p := by
  have hsplit : s.Says p ↔ s.x.toReal = .ok p.x ∧ s.y.toReal = .ok p.y ∧
      s.time.toWhole = .ok p.time ∧ Value.WritesSize (some s.size) p.size :=
    ⟨fun ⟨hx, hy, ht, hs⟩ => ⟨hx, hy, ht, hs⟩, fun ⟨hx, hy, ht, hs⟩ => ⟨hx, hy, ht, hs⟩⟩
  rw [hsplit, Value.writesSize_iff, Option.getD_some]
  obtain ⟨x, y, time, size⟩ := p
  unfold toPoint
  cases (s.x.toReal : Except Fault α) with
  | error f => simp
  | ok x' =>
  cases (s.y.toReal : Except Fault α) with
  | error f => simp
  | ok y' =>
  cases s.time.toWhole with
  | error f => simp
  | ok time' =>
  cases s.size.isNull with
  | true => simp
  | false => cases (s.size.toReal : Except Fault α) <;> simp [Except.map]

end StrayTouch
