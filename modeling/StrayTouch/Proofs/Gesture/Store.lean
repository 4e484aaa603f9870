import StrayTouch.Proofs.Document.Name
import StrayTouch.Proofs.Gesture.Basic
import StrayTouch.Proofs.Gesture.Log
import StrayTouch.Proofs.Gesture.Sample
import Mathlib.Data.List.Pairwise

/-!
A gesture under touches, of which some may fail, is the log of the touches that came out:
`Gesture.Represents` says which gesture stands for a log, and every touch keeps it.
-/
namespace StrayTouch

/-- A touch as it is handed over: a sample of a contact, or its lifting. -/
inductive Touch where
  | point (id : Value) (sample : Sample)
  | up (id : Value)

variable {α : Type} [Scalar α]

namespace Stroke

/-- What every stroke of a gesture keeps: it has a point, its points are finite, and their times
do not decrease. -/
structure Sound (s : Stroke α) : Prop where
  points_ne_nil : s.points ≠ []
  finite : ∀ p ∈ s.points, p.isFinite = true
  ordered : s.points.Pairwise fun p q => p.time ≤ q.time

theorem Sound.freeze {s : Stroke α} (h : s.Sound) : s.freeze.Sound :=
  ⟨h.points_ne_nil, h.finite, h.ordered⟩

theorem Sound.append {s after : Stroke α} {p : Point α} (hs : s.points = [] ∨ s.Sound)
    (h : s.append p = .ok after) : after.Sound := by
  obtain ⟨_, hp, ht, rfl⟩ := append_eq_ok_iff.mp h
  rcases hs with hn | hs
  · exact ⟨by simp, by simp [hn, hp], by simp [hn]⟩
  refine ⟨by simp, ?_, ?_⟩
  · intro q hq
    rcases List.mem_append.mp hq with hq | hq
    · exact hs.finite q hq
    · rw [List.mem_singleton.mp hq, hp]
  · rw [List.pairwise_append]
    refine ⟨hs.ordered, List.pairwise_singleton _ _, ?_⟩
    intro q hq r hr
    rw [List.mem_singleton.mp hr]
    have hl := List.getLast?_eq_some_getLast hs.points_ne_nil
    have hq' := hs.ordered.rel_getLast_of_rel_getLast_getLast hq (Int.le_refl _)
    exact Int.le_trans hq' (ht _ hl)

theorem Sound.durationNanos_nonneg {s : Stroke α} (h : s.Sound) : 0 ≤ s.durationNanos := by
  unfold durationNanos
  rw [List.head?_eq_some_head h.points_ne_nil, List.getLast?_eq_some_getLast h.points_ne_nil]
  have hle := h.ordered.rel_getLast_of_rel_getLast_getLast (List.head_mem h.points_ne_nil)
    (Int.le_refl _)
  exact Int.sub_nonneg.mpr hle

end Stroke

namespace Touch

def steps : Touch → Steps (Gesture α) Unit
  | point id sample => Gesture.takePoint id sample
  | up id => Gesture.liftContact id

/-- What a touch puts into the log, if its contact is a key and its sample can be read. -/
def entry? : Touch → Option (Gesture.Entry α)
  | point id sample =>
    match id.toName, (sample.toPoint : Except Fault (Point α)) with
    | .ok key, .ok p => some (.point key p)
    | _, _ => none
  | up id =>
    match id.toName with
    | .ok key => some (.up key)
    | .error _ => none

/-- What touches put into the log if all of them come out. -/
def log (α : Type) [Scalar α] (ts : List Touch) : List (Gesture.Entry α) :=
  ts.filterMap entry?

/-- What a touch is in the log: the point that its sample says, or the lifting, of the contact that
it names. -/
inductive Records : Touch → Gesture.Entry α → Prop
  | point (key : Name) {sample : Sample} {p : Point α} (h : sample.Says p) :
      Records (.point key.value sample) (.point key p)
  | up (key : Name) : Records (.up key.value) (.up key)

theorem records_point_iff {key : Name} {sample : Sample} {entry : Gesture.Entry α} :
    (point key.value sample).Records entry ↔ ∃ p, sample.Says p ∧ entry = .point key p := by
  generalize hv : key.value = v
  constructor
  · rintro (⟨other, h⟩ | _)
    exact ⟨_, h, by rw [Name.value_injective hv]⟩
  · rintro ⟨p, h, rfl⟩
    exact hv ▸ .point key h

theorem records_up_iff {key : Name} {entry : Gesture.Entry α} :
    (up key.value).Records entry ↔ entry = .up key := by
  generalize hv : key.value = v
  constructor
  · rintro (_ | other)
    rw [Name.value_injective hv]
  · rintro rfl
    exact hv ▸ .up key

theorem entry?_eq_some_iff {t : Touch} {entry : Gesture.Entry α} :
    t.entry? = some entry ↔ t.Records entry := by
  constructor
  · intro h
    cases t with
    | point id sample =>
      cases hk : id.toName with
      | error f => simp [Touch.entry?, hk] at h
      | ok key =>
      cases hp : (sample.toPoint : Except Fault (Point α)) with
      | error f => simp [Touch.entry?, hk, hp] at h
      | ok p =>
      simp only [Touch.entry?, hk, hp, Option.some.injEq] at h
      rw [← h, Value.toName_eq_ok_iff.mp hk]
      exact .point key (Sample.toPoint_eq_ok_iff.mp hp)
    | up id =>
      cases hk : id.toName with
      | error f => simp [Touch.entry?, hk] at h
      | ok key =>
      simp only [Touch.entry?, hk, Option.some.injEq] at h
      rw [← h, Value.toName_eq_ok_iff.mp hk]
      exact .up key
  · rintro (⟨key, h⟩ | key)
    · simp only [Touch.entry?, Name.toName_value, Sample.toPoint_eq_ok_iff.mpr h]
    · simp only [Touch.entry?, Name.toName_value]

end Touch

namespace Gesture

/-- A touch on a gesture: its fault, if it fails, and the gesture as its steps have left it. -/
def touch (g : Gesture α) (t : Touch) : Option Fault × Gesture α :=
  match (t.steps : Steps (Gesture α) Unit).run g with
  | .ok _ after => (none, after)
  | .error f after => (some f, after)

def follow (g : Gesture α) : List Touch → List (Option Fault) × Gesture α
  | [] => ([], g)
  | t :: ts =>
    let (fault?, after) := g.touch t
    let (faults, last) := follow after ts
    (fault? :: faults, last)

/-- The touches that come out. -/
def taken (g : Gesture α) (ts : List Touch) : List Touch :=
  ((ts.zip (g.follow ts).1).filter fun x => x.2.isNone).map Prod.fst

def Log.stroke (dpi : α) (log : List (Entry α)) (id : Name) : Stroke α :=
  ⟨dpi, Log.pointsOf log id, Log.isLifted log id⟩

/-- The gesture that stands for a log on a display. -/
structure Represents (g : Gesture α) (dpi : α) (log : List (Entry α)) : Prop where
  dpi_eq : g.dpi = dpi
  capturing : g.phase = .capturing
  contacts_eq : g.contacts = (Log.contacts log).map fun id => (id, Log.stroke dpi log id)
  pressed : ∀ id, Log.isLifted log id = true → Log.pointsOf log id ≠ []
  sound : ∀ s ∈ g.strokes, s.Sound

theorem represents_empty (dpi : α) : (empty dpi).Represents dpi [] :=
  ⟨rfl, rfl, rfl, by simp [Log.isLifted], by simp [strokes, empty]⟩

theorem sound_putStroke {g : Gesture α} {key : Name} {s : Stroke α} (hs : s.Sound)
    (hg : ∀ t ∈ g.strokes, t.Sound) : ∀ t ∈ (g.putStroke key s).strokes, t.Sound := by
  intro t ht
  obtain ⟨c, hc, rfl⟩ := List.mem_map.mp ht
  rcases Keyed.eq_or_mem_of_mem_put hc with ⟨he, _⟩ | hc
  · rw [he]
    exact hs
  · exact hg _ (List.mem_map_of_mem hc)

namespace Represents

variable {g : Gesture α} {dpi : α} {log : List (Entry α)}

theorem stroke?_eq (h : g.Represents dpi log) (key : Name) :
    g.stroke? key =
      if (Log.contacts log).any key.sameKey then some (Log.stroke dpi log key) else none := by
  rw [stroke?, h.contacts_eq]
  refine Keyed.get?_map _ (fun a b hk => ?_) key
  simp only [Log.stroke, Log.pointsOf_congr hk, Log.isLifted_congr hk]

theorem stroke?_getD (h : g.Represents dpi log) (key : Name) :
    (g.stroke? key).getD (Stroke.empty dpi) = Log.stroke dpi log key := by
  rw [h.stroke?_eq]
  split
  next => rfl
  next hn =>
    have hp : Log.pointsOf log key = [] := by
      by_contra hp
      exact hn ((Log.any_contacts_iff log key).mpr hp)
    have hl : Log.isLifted log key = false := by
      rw [← Bool.not_eq_true]
      exact fun hl => h.pressed key hl hp
    simp [Log.stroke, hp, hl, Stroke.empty]

theorem contactIds_eq (h : g.Represents dpi log) : g.contactIds = Log.contacts log := by
  rw [contactIds, h.contacts_eq, Keyed.keys, List.map_map]
  exact List.map_id _

theorem activeContacts_eq (h : g.Represents dpi log) :
    g.activeContacts = (Log.contacts log).filter fun id => !Log.isLifted log id := by
  rw [activeContacts, h.contacts_eq, Keyed.keys, List.filter_map, List.map_map]
  exact List.map_id _

theorem points_eq (h : g.Represents dpi log) (key : Name) :
    (g.stroke? key).elim [] Stroke.points = Log.pointsOf log key := by
  rw [h.stroke?_eq]
  split
  next => rfl
  next hn =>
    by_contra hp
    exact hn ((Log.any_contacts_iff log key).mpr fun he => hp he.symm)

theorem dpi_of_mem (h : g.Represents dpi log) {s : Stroke α} (hs : s ∈ g.strokes) :
    s.dpi = dpi := by
  rw [strokes, h.contacts_eq, List.map_map] at hs
  obtain ⟨id, _, rfl⟩ := List.mem_map.mp hs
  rfl

theorem putStroke_contacts (h : g.Represents dpi log) (key : Name) (s : Stroke α) :
    (g.putStroke key s).contacts =
      (if (Log.contacts log).any key.sameKey then Log.contacts log
        else Log.contacts log ++ [key]).map fun id =>
        (id, if key.sameKey id then s else Log.stroke dpi log id) := by
  rw [putStroke, h.contacts_eq]
  exact Keyed.put_map (Log.nodup_contacts log) _ key s

theorem point (h : g.Represents dpi log) {key : Name} {p : Point α} {s : Stroke α}
    (hs : ((g.stroke? key).getD (Stroke.empty g.dpi)).append p = .ok s) :
    (g.putStroke key s).Represents dpi (log ++ [.point key p]) := by
  have hbefore : (g.stroke? key).getD (Stroke.empty dpi) = Log.stroke dpi log key :=
    h.stroke?_getD key
  rw [h.dpi_eq, hbefore] at hs
  obtain ⟨_, _, _, he⟩ := Stroke.append_eq_ok_iff.mp hs
  refine ⟨h.dpi_eq, h.capturing, ?_, ?_, ?_⟩
  · rw [h.putStroke_contacts, Log.contacts_append_point]
    refine List.map_congr_left fun id _ => ?_
    by_cases hk : key.sameKey id = true
    · have hc := Name.sameKey_iff.mp hk
      simp [hk, he, Log.stroke, Log.pointsOf_congr hc, Log.isLifted_congr hc]
    · simp [hk, Log.stroke]
  · intro id hl
    rw [Log.isLifted_append_point] at hl
    rw [Log.pointsOf_append_point]
    split
    next => simp
    next => exact h.pressed id hl
  · refine sound_putStroke (Stroke.Sound.append ?_ hs) h.sound
    by_cases hp : Log.pointsOf log key = []
    · exact .inl hp
    · have hc := (Log.any_contacts_iff log key).mpr hp
      have hm : g.stroke? key = some (Log.stroke dpi log key) := by rw [h.stroke?_eq, if_pos hc]
      obtain ⟨k, _, hm⟩ := Keyed.mem_of_get? hm
      exact .inr (h.sound _ (List.mem_map_of_mem hm))

theorem up (h : g.Represents dpi log) {key : Name} {s : Stroke α} (hs : g.stroke? key = some s) :
    (g.putStroke key s.freeze).Represents dpi (log ++ [.up key]) := by
  have hc : (Log.contacts log).any key.sameKey = true := by
    by_contra hc
    rw [h.stroke?_eq, if_neg hc] at hs
    cases hs
  have he : Log.stroke dpi log key = s := by
    rw [h.stroke?_eq, if_pos hc] at hs
    exact Option.some.inj hs
  refine ⟨h.dpi_eq, h.capturing, ?_, ?_, ?_⟩
  · rw [h.putStroke_contacts, if_pos hc, Log.contacts_append_up]
    refine List.map_congr_left fun id _ => ?_
    by_cases hk : key.sameKey id = true
    · have hi := Name.sameKey_iff.mp hk
      simp [hk, ← he, Stroke.freeze, Log.stroke, Log.pointsOf_congr hi]
    · simp [hk, Log.stroke]
  · intro id hl
    rw [Log.pointsOf_append_up]
    rw [Log.isLifted_append_up, Bool.or_eq_true] at hl
    rcases hl with hl | hl
    · exact h.pressed id hl
    · rw [← Log.pointsOf_congr (Name.sameKey_iff.mp hl)]
      exact (Log.any_contacts_iff log key).mp hc
  · obtain ⟨k, _, hm⟩ := Keyed.mem_of_get? hs
    exact sound_putStroke (h.sound _ (List.mem_map_of_mem hm)).freeze h.sound

end Represents

/-- Whether a gesture that stands for a log can take one more entry: a point must be finite, of a
contact that is not lifted and not earlier than its last point, and only contacts with points can
be lifted. -/
def Log.Accepts (log : List (Entry α)) : Entry α → Prop
  | .point id p =>
    Log.isLifted log id = false ∧ p.isFinite = true ∧
      ∀ last, (Log.pointsOf log id).getLast? = some last → last.time ≤ p.time
  | .up id => Log.pointsOf log id ≠ []

theorem touch_point (g : Gesture α) (id : Value) (sample : Sample) :
    g.touch (.point id sample) =
      match g.addPoint id sample with
      | .ok after => (none, after)
      | .error f => (some f, g) := by
  rw [touch, Touch.steps, takePoint_run]
  cases g.addPoint id sample <;> rfl

theorem touch_up (g : Gesture α) (id : Value) :
    g.touch (.up id) =
      match g.endStroke id with
      | .ok after => (none, after)
      | .error f => (some f, g) := by
  rw [touch, Touch.steps, liftContact_run]
  cases g.endStroke id <;> rfl

theorem touch_point_eq_none_iff {g : Gesture α} {id : Value} {sample : Sample} :
    (g.touch (.point id sample)).1 = none ↔ ∃ after, g.addPoint id sample = .ok after := by
  rw [touch_point]
  cases g.addPoint id sample <;> simp

theorem touch_up_eq_none_iff {g : Gesture α} {id : Value} :
    (g.touch (.up id)).1 = none ↔ ∃ after, g.endStroke id = .ok after := by
  rw [touch_up]
  cases g.endStroke id <;> simp

theorem touch_of_fault {g : Gesture α} {t : Touch} {f : Fault} (h : (g.touch t).1 = some f) :
    g.touch t = (some f, g) := by
  cases t with
  | point id sample =>
    rw [touch_point] at h ⊢
    split at h <;> simp_all
  | up id =>
    rw [touch_up] at h ⊢
    split at h <;> simp_all

namespace Represents

variable {g : Gesture α} {dpi : α} {log : List (Entry α)}

theorem touch_eq_none_iff (h : g.Represents dpi log) (t : Touch) :
    (g.touch t).1 = none ↔ ∃ entry, t.entry? = some entry ∧ Log.Accepts log entry := by
  simp only [Touch.entry?_eq_some_iff]
  cases t with
  | point id sample =>
    rw [touch_point_eq_none_iff]
    simp only [addPoint_eq_ok_iff, h.dpi_eq, h.stroke?_getD, Stroke.append_eq_ok_iff,
      Sample.toPoint_eq_ok_iff, Value.toName_eq_ok_iff]
    constructor
    · rintro ⟨_, _, p, key, _, hp, rfl, ⟨hl, hf, ht, _⟩, _⟩
      exact ⟨.point key p, .point key hp, hl, hf, ht⟩
    · rintro ⟨_, ⟨key, hp⟩, hl, hf, ht⟩
      exact ⟨_, h.capturing, _, key, _, hp, rfl, ⟨hl, hf, ht, rfl⟩, rfl⟩
  | up id =>
    rw [touch_up_eq_none_iff]
    simp only [endStroke_eq_ok_iff, h.stroke?_eq, Value.toName_eq_ok_iff]
    constructor
    · rintro ⟨_, _, key, s, rfl, hs, _⟩
      have hc : (Log.contacts log).any key.sameKey = true := by
        by_contra hc
        simp [hc] at hs
      exact ⟨.up key, .up key, (Log.any_contacts_iff log key).mp hc⟩
    · rintro ⟨_, _ | key, ha⟩
      exact ⟨_, h.capturing, key, _, rfl, if_pos ((Log.any_contacts_iff log key).mpr ha), rfl⟩

theorem touch (h : g.Represents dpi log) {t : Touch} (ht : (g.touch t).1 = none) :
    ∃ entry, t.entry? = some entry ∧ (g.touch t).2.Represents dpi (log ++ [entry]) := by
  cases t with
  | point id sample =>
    obtain ⟨after, ha⟩ := touch_point_eq_none_iff.mp ht
    obtain ⟨_, p, key, s, hp, hk, hs, rfl⟩ := addPoint_eq_ok_iff.mp ha
    refine ⟨.point key p, by rw [Touch.entry?, hp, hk], ?_⟩
    rw [touch_point, ha]
    exact h.point hs
  | up id =>
    obtain ⟨after, ha⟩ := touch_up_eq_none_iff.mp ht
    obtain ⟨_, key, s, hk, hs, rfl⟩ := endStroke_eq_ok_iff.mp ha
    refine ⟨.up key, by rw [Touch.entry?, hk], ?_⟩
    rw [touch_up, ha]
    exact h.up hs

theorem follow (h : g.Represents dpi log) (ts : List Touch) :
    ∃ entries, (g.taken ts).map Touch.entry? = entries.map some ∧
      (g.follow ts).2.Represents dpi (log ++ entries) := by
  induction ts generalizing g log with
  | nil => exact ⟨[], rfl, by simpa [Gesture.follow] using h⟩
  | cons t ts ih =>
    cases ht : (g.touch t).1 with
    | some f =>
      obtain ⟨entries, he, hr⟩ := ih h
      refine ⟨entries, ?_, ?_⟩
      · simpa [taken, Gesture.follow, touch_of_fault ht] using he
      · simpa [Gesture.follow, touch_of_fault ht] using hr
    | none =>
      obtain ⟨entry, hentry, hafter⟩ := h.touch ht
      obtain ⟨entries, he, hr⟩ := ih hafter
      refine ⟨entry :: entries, ?_, ?_⟩
      · simpa [taken, Gesture.follow, ht, hentry] using he
      · simpa [Gesture.follow] using hr

end Represents

/-- The store refines the log. After any touches, of which some may have failed, the gesture is the
log of those that came out, each with the point that its sample says: every contact once, in the
order of the first points, with exactly its own points in order, active until it is lifted. The next
touch comes out exactly when it says something that the log accepts. Every stroke has a point, its
points are finite, and their times do not decrease. -/
theorem follow_refines_log (dpi : α) (ts : List Touch) :
    let g := ((empty dpi).follow ts).2
    ∃ log : List (Entry α), List.Forall₂ Touch.Records ((empty dpi).taken ts) log ∧
    g.contacts = (Log.contacts log).map (fun id =>
      (id, ⟨dpi, Log.pointsOf log id, Log.isLifted log id⟩)) ∧
    g.contactIds = Log.contacts log ∧
    ((Log.contacts log).map Name.key).Nodup ∧
    (∀ id, (g.stroke? id).elim [] Stroke.points = Log.pointsOf log id) ∧
    g.activeContacts = (Log.contacts log).filter (fun id => !Log.isLifted log id) ∧
    (∀ t, (g.touch t).1 = none ↔ ∃ entry, t.Records entry ∧ Log.Accepts log entry) ∧
    g.dpi = dpi ∧
    ∀ s ∈ g.strokes, s.dpi = g.dpi ∧ s.points ≠ [] ∧ (∀ p ∈ s.points, p.isFinite = true) ∧
      (s.points.Pairwise fun p q => p.time ≤ q.time) ∧ 0 ≤ s.durationNanos := by
  intro g
  obtain ⟨log, hlog, hr⟩ := (represents_empty dpi).follow ts
  rw [List.nil_append] at hr
  have hrecords : List.Forall₂ Touch.Records ((empty dpi).taken ts) log := by
    have heq : List.Forall₂ Eq (((empty dpi).taken ts).map Touch.entry?) (log.map some) :=
      hlog ▸ List.forall₂_refl _
    rw [List.forall₂_map_left_iff, List.forall₂_map_right_iff] at heq
    exact heq.imp fun _ _ => Touch.entry?_eq_some_iff.mp
  have haccepts (t : Touch) : (g.touch t).1 = none ↔
      ∃ entry, t.Records entry ∧ Log.Accepts log entry := by
    simp only [← Touch.entry?_eq_some_iff]
    exact hr.touch_eq_none_iff t
  refine ⟨log, hrecords, hr.contacts_eq, hr.contactIds_eq, Log.nodup_contacts log, hr.points_eq,
    hr.activeContacts_eq, haccepts, hr.dpi_eq, ?_⟩
  intro s hs
  have hsound := hr.sound s hs
  exact ⟨(hr.dpi_of_mem hs).trans hr.dpi_eq.symm, hsound.points_ne_nil, hsound.finite,
    hsound.ordered, hsound.durationNanos_nonneg⟩

end Gesture

end StrayTouch
