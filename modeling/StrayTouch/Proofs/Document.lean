import StrayTouch.Proofs.Outcome
import StrayTouch.Evaluator.Build

/-!
What there is inside a value: all that one comes to by going through it and through what it holds.
A number that is read from a value is refused as no number or as too large.
-/
namespace StrayTouch.Value

/-- The values inside a value: the value itself, and those inside its items, which are its keys if
it is a mapping, and inside its entries. -/
inductive Reaches : Value → Value → Prop
  | refl (v : Value) : Reaches v v
  | item {v w u : Value} {items : List Value} (h : v.items = .ok items) (hw : w ∈ items)
      (hu : Reaches w u) : Reaches v u
  | entry {v w u : Value} {entries : List (Name × Value)} {key : Name}
      (h : v.head = .map entries) (hw : (key, w) ∈ entries) (hu : Reaches w u) : Reaches v u

theorem Reaches.trans {v w u : Value} (h : v.Reaches w) (hu : w.Reaches u) : v.Reaches u := by
  induction h with
  | refl v => exact hu
  | item hi hw _ ih => exact .item hi hw (ih hu)
  | entry he hw _ ih => exact .entry he hw (ih hu)

theorem reaches_item {v w : Value} {items : List Value} (h : v.items = .ok items)
    (hw : w ∈ items) : v.Reaches w :=
  .item h hw (.refl w)

theorem reaches_key {v w : Value} {key : Name} {entries : List (Name × Value)}
    (h : v.head = .map entries) (hw : (key, w) ∈ entries) : v.Reaches key.value := by
  have hkeys : v.items = .ok (entries.map fun e => e.1.value) := by rw [items, h]
  exact reaches_item hkeys (List.mem_map_of_mem hw)

theorem reaches_field? {v w : Value} {name : String} (h : v.field? name = some w) :
    v.Reaches w := by
  unfold field? at h
  split at h
  next entries he =>
    obtain ⟨⟨key, _⟩, hfind, rfl⟩ := Option.map_eq_some_iff.mp h
    exact .entry he (List.mem_of_find?_eq_some hfind) (.refl _)
  next => cases h

theorem items_of_list {v : Value} {items : List Value} (h : v.head = .list items) :
    v.items = .ok items := by
  rw [Value.items, h]

theorem items_of_tuple {v : Value} {items : List Value} (h : v.head = .tuple items) :
    v.items = .ok items := by
  rw [Value.items, h]

theorem reaches_of_field {v w : Value} {name : String} (h : v.field name = w)
    (hw : w.isNull = false) : v.Reaches w := by
  unfold field at h
  cases hf : v.field? name with
  | none =>
    rw [hf] at h
    subst h
    cases hw
  | some u =>
    rw [hf] at h
    exact h ▸ reaches_field? hf

theorem items_eq_error {v : Value} {f : Fault} (h : v.items = .error f) :
    f = .notIterable v.head.typeName := by
  unfold items at h
  split at h
  all_goals first | exact (Except.error.inj h).symm | cases h

/-- What is no real number is refused for that, and a whole number beyond the range as such. -/
theorem toReal_eq_error {α : Type} [Scalar α] {v : Value} {f : Fault}
    (h : v.toReal (α := α) = .error f) :
    f.blamesRow = true ∨
      f = .wholeTooLarge ∧ ∃ n, v = .int n ∧ (Scalar.ofInt? n : Option α) = none := by
  unfold toReal at h
  split at h
  case h_2 n =>
    cases hn : (Scalar.ofInt? n : Option α) with
    | some x => simp [hn] at h
    | none =>
      rw [hn] at h
      exact .inr ⟨(Except.error.inj h).symm, n, rfl, hn⟩
  all_goals
    try split at h
    all_goals cases h <;> exact .inl rfl

end StrayTouch.Value

namespace StrayTouch.Fault

/-- A fault is of its own kind, unless one of the values that it shows cannot be shown. -/
theorem kind_cases (f : Fault) :
    f.kind = f.ownKind ∨ ∃ v ∈ f.shownValues, ∃ o, v.obstacle? Value.depthLimit = some o ∧
      f.kind = (ofObstacle o).ownKind := by
  unfold kind unshowable?
  cases ho : f.shownValues.findSome? fun v => v.obstacle? Value.depthLimit with
  | none => exact .inl rfl
  | some o =>
    obtain ⟨v, hv, hvo⟩ := List.exists_of_findSome?_eq_some ho
    exact .inr ⟨v, hv, o, hvo, rfl⟩

end StrayTouch.Fault
