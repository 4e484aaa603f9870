import StrayTouch.Proofs.Gesture.Store

/-!
A gesture with one more contact. Touches of a contact that is new to a gesture leave the strokes of
the other contacts as they are, and put its own at their end.
-/
namespace StrayTouch

variable {α : Type}

def Touch.contact : Touch → Value
  | point id _ => id
  | up id => id

namespace Gesture

namespace Entry

def contact : Entry α → Name
  | point id _ => id
  | up id => id

end Entry

namespace Log

variable {log entries : List (Entry α)} {id other : Name}

theorem pointsOf_append_of_ne (h : ∀ e ∈ entries, e.contact = id) (hne : other.key ≠ id.key) :
    pointsOf (log ++ entries) other = pointsOf log other := by
  have hsilent : pointsOf entries other = [] := by
    apply List.filterMap_eq_nil_iff.mpr
    intro e he
    have hid := h e he
    cases e with
    | up key => rfl
    | point key p =>
      obtain rfl : key = id := hid
      have hkey : key.sameKey other = false := Name.sameKey_eq_false_iff.mpr hne.symm
      simp [Entry.pointFor?, hkey]
  rw [pointsOf, List.filterMap_append]
  exact (congrArg _ hsilent).trans (List.append_nil _)

/-- The first point of a contact puts it at the end, and whatever else it does leaves it there. -/
theorem contacts_append_new {p : Point α} (hnew : (contacts log).any id.sameKey = false)
    (h : ∀ e ∈ entries, e.contact = id) :
    contacts (log ++ .point id p :: entries) = contacts log ++ [id] := by
  induction entries using List.reverseRecOn with
  | nil =>
    rw [contacts_append_point, hnew]
    rfl
  | append_singleton entries e ih =>
    have hrest := ih fun x hx => h x (List.mem_append_left _ hx)
    have hlog : log ++ .point id p :: (entries ++ [e]) =
        (log ++ .point id p :: entries) ++ [e] := by
      simp
    have he : e.contact = id := h e (by simp)
    rw [hlog]
    cases e with
    | up key => rw [contacts_append_up, hrest]
    | point key q =>
      obtain rfl : key = id := he
      rw [contacts_append_point, hrest, if_pos]
      simp [Name.sameKey_refl]

end Log

variable [Scalar α] {g : Gesture α} {dpi : α} {log : List (Entry α)}

theorem contact_eq_value {t : Touch} {entry : Entry α} (h : t.entry? = some entry) :
    t.contact = entry.contact.value := by
  rcases Touch.entry?_eq_some_iff.mp h with ⟨key, _⟩ | key <;> rfl

theorem taken_of_forall_none {us : List Touch} (h : ∀ f? ∈ (g.follow us).1, f? = none) :
    g.taken us = us := by
  induction us generalizing g with
  | nil => rfl
  | cons u us ih =>
    simp only [follow, List.forall_mem_cons] at h
    obtain ⟨hu, hus⟩ := h
    have hrest := ih hus
    simp only [taken] at hrest ⊢
    simp [follow, hu, hrest]

/-- A gesture stands for what the touches that it has taken put into the log. -/
theorem Represents.follow_taken (h : g.Represents dpi log) (us : List Touch) :
    (g.follow us).2.Represents dpi (log ++ Touch.log α (g.taken us)) := by
  obtain ⟨entries, hentries, hr⟩ := h.follow us
  have hlog : Touch.log α (g.taken us) = entries := by
    have hmap : Touch.log α (g.taken us) = ((g.taken us).map Touch.entry?).filterMap id := by
      rw [List.filterMap_map, Function.id_comp]
      rfl
    rw [hmap, hentries]
    simp
  rw [hlog]
  exact hr

/-- Where all touches come out, it stands for what they put there. -/
theorem Represents.follow_log (h : g.Represents dpi log) {us : List Touch}
    (hall : ∀ f? ∈ (g.follow us).1, f? = none) :
    (g.follow us).2.Represents dpi (log ++ Touch.log α us) := by
  have hr := h.follow_taken us
  rwa [taken_of_forall_none hall] at hr

theorem Represents.any_contacts_of_new (h : g.Represents dpi log) {id : Name}
    (hnew : g.stroke? id = none) : (Log.contacts log).any id.sameKey = false := by
  rw [h.stroke?_eq] at hnew
  cases hc : (Log.contacts log).any id.sameKey with
  | false => rfl
  | true =>
    rw [hc] at hnew
    cases hnew

/-- The first touch of a contact that comes out is a point. -/
theorem Represents.exists_point (h : g.Represents dpi log) {id : Name} {u : Touch}
    (hnew : g.stroke? id = none) (hu : u.contact = id.value) (hnone : (g.touch u).1 = none) :
    ∃ p : Point α, u.entry? = some (.point id p) := by
  obtain ⟨entry, hentry, haccepts⟩ := (h.touch_eq_none_iff u).mp hnone
  have hid : entry.contact = id :=
    Name.value_injective ((contact_eq_value hentry).symm.trans hu)
  cases entry with
  | point key p =>
    obtain rfl : key = id := hid
    exact ⟨p, hentry⟩
  | up key =>
    obtain rfl : key = id := hid
    have hpressed := (Log.any_contacts_iff log key).mpr haccepts
    rw [h.any_contacts_of_new hnew] at hpressed
    cases hpressed

/-- What a gesture stands for once a new contact has been added to it. -/
theorem Represents.follow_new (h : g.Represents dpi log) {id : Name} (hnew : g.stroke? id = none)
    {us : List Touch} (hne : us ≠ []) (hus : ∀ u ∈ us, u.contact = id.value)
    (hall : ∀ f? ∈ (g.follow us).1, f? = none) :
    (g.follow us).2.Represents dpi (log ++ Touch.log α us) ∧
      Log.contacts (log ++ Touch.log α us) = Log.contacts log ++ [id] ∧
      ∀ other, other.key ≠ id.key →
        Log.pointsOf (log ++ Touch.log α us) other = Log.pointsOf log other := by
  have hentries : ∀ e ∈ Touch.log α us, e.contact = id := by
    intro e he
    obtain ⟨u, hu, hue⟩ := List.mem_filterMap.mp he
    exact Name.value_injective ((contact_eq_value hue).symm.trans (hus u hu))
  refine ⟨h.follow_log hall, ?_, fun other => Log.pointsOf_append_of_ne hentries⟩
  cases us with
  | nil => exact absurd rfl hne
  | cons u us =>
    simp only [Gesture.follow, List.forall_mem_cons] at hall
    obtain ⟨p, hp⟩ := h.exists_point hnew (hus u List.mem_cons_self) hall.1
    have hlog : Touch.log α (u :: us) = .point id p :: Touch.log α us := by
      simp [Touch.log, hp]
    rw [hlog] at hentries ⊢
    exact Log.contacts_append_new (h.any_contacts_of_new hnew) (List.forall_mem_cons.mp hentries).2

end Gesture

end StrayTouch
