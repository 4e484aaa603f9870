import StrayTouch.Proofs.Gesture.Contact

/-!
Two runs of touches side by side, the points of the second being those of the first, each changed
in the way of its contact. A change that keeps the order of times and what is finite goes unnoticed:
each touch comes out in one run exactly if it comes out in the other, and the second gesture stands
for the changed log of the first.
-/
namespace StrayTouch.Gesture

variable {α : Type} {f : Key → Point α → Point α}

/-- An entry with its point changed in the way of its contact. -/
def Entry.changed (f : Key → Point α → Point α) : Entry α → Entry α
  | .point id p => .point id (f id.key p)
  | .up id => .up id

namespace Log

theorem contacts_changed (log : List (Entry α)) :
    contacts (log.map (Entry.changed f)) = contacts log := by
  have hpressed : Entry.pressed? ∘ Entry.changed f = Entry.pressed? := by
    funext e
    cases e <;> rfl
  rw [contacts, List.filterMap_map, hpressed]
  rfl

theorem isLifted_changed (log : List (Entry α)) (id : Name) :
    isLifted (log.map (Entry.changed f)) id = isLifted log id := by
  have hlifts : Entry.lifts id ∘ Entry.changed f = Entry.lifts id := by
    funext e
    cases e <;> rfl
  rw [isLifted, List.any_map, hlifts]
  rfl

theorem pointsOf_changed (log : List (Entry α)) (id : Name) :
    pointsOf (log.map (Entry.changed f)) id = (pointsOf log id).map (f id.key) := by
  have hpoint (e : Entry α) :
      (e.changed f).pointFor? id = (e.pointFor? id).map (f id.key) := by
    cases e with
    | up key => rfl
    | point key p =>
      by_cases h : key.sameKey id = true
      · simp [Entry.changed, Entry.pointFor?, h, Name.sameKey_iff.mp h]
      · simp [Entry.changed, Entry.pointFor?, h]
  rw [pointsOf, List.filterMap_map, pointsOf, List.map_filterMap]
  exact List.filterMap_congr fun e _ => hpoint e

variable [Scalar α]

/-- A change of points that goes unnoticed on a log. -/
structure Unnoticed (f : Key → Point α → Point α) (log : List (Entry α)) : Prop where
  time : ∀ k p q, (f k p).time ≤ (f k q).time ↔ p.time ≤ q.time
  finite : ∀ id p, .point id p ∈ log → (f id.key p).isFinite = p.isFinite

theorem accepts_changed {log : List (Entry α)} {e : Entry α} (h : Unnoticed f [e]) :
    Accepts (log.map (Entry.changed f)) (e.changed f) ↔ Accepts log e := by
  cases e with
  | up id => simp [Accepts, Entry.changed, pointsOf_changed]
  | point id p =>
    have hfinite := h.finite id p List.mem_cons_self
    simp [Accepts, Entry.changed, pointsOf_changed, isLifted_changed, hfinite,
      List.getLast?_map, h.time]

end Log

variable [Scalar α] {g other : Gesture α} {dpi density : α} {log : List (Entry α)}

namespace Represents

theorem touch_changed (h : g.Represents dpi log)
    (ho : other.Represents density (log.map (Entry.changed f))) {t u : Touch}
    (hu : u.entry? = t.entry?.map (Entry.changed f))
    (hf : ∀ e, t.entry? = some e → Log.Unnoticed f [e]) :
    (other.touch u).1 = none ↔ (g.touch t).1 = none := by
  rw [h.touch_eq_none_iff, ho.touch_eq_none_iff, hu]
  cases ht : (t.entry? : Option (Entry α)) with
  | none => simp
  | some e => simpa using Log.accepts_changed (hf e ht)

/-- Touches that are changed in a way that goes unnoticed come out as they did. -/
theorem follow_changed (h : g.Represents dpi log)
    (ho : other.Represents density (log.map (Entry.changed f))) {ts us : List Touch}
    (hus : us.map Touch.entry? = ts.map fun t => t.entry?.map (Entry.changed f))
    (hf : Log.Unnoticed f (Touch.log α ts)) :
    (other.follow us).1.map Option.isNone = (g.follow ts).1.map Option.isNone ∧
      ∃ entries, entries.Sublist (Touch.log α ts) ∧
        (g.follow ts).2.Represents dpi (log ++ entries) ∧
        (other.follow us).2.Represents density ((log ++ entries).map (Entry.changed f)) := by
  induction ts generalizing us g other log with
  | nil =>
    obtain rfl : us = [] := List.map_eq_nil_iff.mp hus
    exact ⟨rfl, [], .slnil, by simpa [Gesture.follow] using h, by simpa [Gesture.follow] using ho⟩
  | cons t ts ih =>
    cases us with
    | nil => cases hus
    | cons u us =>
    simp only [List.map_cons, List.cons.injEq] at hus
    obtain ⟨hu, hrest⟩ := hus
    have hone : ∀ e, t.entry? = some e → Log.Unnoticed f [e] := by
      intro e he
      refine ⟨hf.time, fun id p hp => hf.finite id p ?_⟩
      rw [List.mem_singleton.mp hp]
      exact List.mem_filterMap.mpr ⟨t, List.mem_cons_self, he⟩
    have hmore : (Touch.log α ts).Sublist (Touch.log α (t :: ts)) :=
      (List.sublist_cons_self t ts).filterMap Touch.entry?
    have hlater : Log.Unnoticed f (Touch.log α ts) :=
      ⟨hf.time, fun id p hp => hf.finite id p (hmore.subset hp)⟩
    have htouch := h.touch_changed ho hu hone
    cases ht : (g.touch t).1 with
    | some fault =>
      obtain ⟨other_fault, hother⟩ : ∃ f, (other.touch u).1 = some f := by
        rw [← Option.ne_none_iff_exists', ne_eq, htouch, ht]
        exact Option.some_ne_none fault
      obtain ⟨hfaults, entries, hsub, hg, hgo⟩ := ih h ho hrest hlater
      simp only [Gesture.follow, touch_of_fault ht, touch_of_fault hother, List.map_cons, hfaults,
        Option.isNone_some, true_and]
      exact ⟨entries, hsub.trans hmore, hg, hgo⟩
    | none =>
      obtain ⟨e, he, hg⟩ := h.touch ht
      obtain ⟨_, hchanged, hgo⟩ := ho.touch (htouch.mpr ht)
      rw [hu, he] at hchanged
      obtain rfl := Option.some.inj hchanged
      rw [← List.map_singleton, ← List.map_append] at hgo
      obtain ⟨hfaults, entries, hsub, hlast, hlasto⟩ := ih hg hgo hrest hlater
      have hlog : Touch.log α (t :: ts) = e :: Touch.log α ts := by simp [Touch.log, he]
      rw [List.append_assoc] at hlast hlasto
      simp only [Gesture.follow, List.map_cons, hfaults, ht, htouch.mpr ht, true_and]
      exact ⟨e :: entries, hlog ▸ hsub.cons_cons e, hlast, hlasto⟩

end Represents

end StrayTouch.Gesture
