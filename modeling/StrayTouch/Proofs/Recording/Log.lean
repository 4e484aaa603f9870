import StrayTouch.Proofs.Gesture.Store

/-!
The log of contacts that touch one after another, as a recording lists them: each puts down all its
points and is lifted before the next one comes. A gesture can take such a log exactly when every
contact that brings points is a new one and every contact that brings none has been there before.
-/
namespace StrayTouch

open Gesture

variable {α : Type}

namespace Gesture.Log

variable {log : List (Entry α)} {id key : Name}

theorem pointsOf_append (log others : List (Entry α)) (id : Name) :
    pointsOf (log ++ others) id = pointsOf log id ++ pointsOf others id :=
  List.filterMap_append

theorem isLifted_append (log others : List (Entry α)) (id : Name) :
    isLifted (log ++ others) id = (isLifted log id || isLifted others id) :=
  List.any_append

/-- Further points of a contact that is there do not change which contacts there are. -/
theorem contacts_append_points (h : (contacts log).any id.sameKey = true) (ps : List (Point α)) :
    contacts (log ++ ps.map (.point id)) = contacts log := by
  induction ps generalizing log with
  | nil => simp
  | cons p ps ih =>
    have hp : contacts (log ++ [.point id p]) = contacts log := by
      rw [contacts_append_point, if_pos h]
    rw [List.map_cons, List.append_cons, ih (by rwa [hp]), hp]

variable [Scalar α]

/-- Entries that a gesture can take one after another. -/
def AcceptsAll : List (Entry α) → List (Entry α) → Prop
  | _, [] => True
  | log, e :: es => Accepts log e ∧ AcceptsAll (log ++ [e]) es

theorem acceptsAll_append {xs ys : List (Entry α)} :
    AcceptsAll log (xs ++ ys) ↔ AcceptsAll log xs ∧ AcceptsAll (log ++ xs) ys := by
  induction xs generalizing log with
  | nil => simp [AcceptsAll]
  | cons e xs ih => simp [AcceptsAll, ih, and_assoc]

omit [Scalar α] in
theorem pairwise_concat_iff {ps : List (Point α)} {p : Point α}
    (h : ps.Pairwise fun p q => p.time ≤ q.time) :
    ((ps ++ [p]).Pairwise fun p q => p.time ≤ q.time) ↔
      ∀ last, ps.getLast? = some last → last.time ≤ p.time := by
  rw [List.pairwise_append]
  constructor
  · rintro ⟨_, _, hp⟩ last hlast
    exact hp last (List.mem_of_getLast? hlast) p List.mem_cons_self
  · intro hlast
    refine ⟨h, List.pairwise_singleton _ _, fun q hq r hr => ?_⟩
    rw [List.mem_singleton.mp hr]
    have hne := List.ne_nil_of_mem hq
    have hle := h.rel_getLast_of_rel_getLast_getLast hq (Int.le_refl _)
    exact Int.le_trans hle (hlast _ (List.getLast?_eq_some_getLast hne))

/-- The points of a contact that is down can be taken when they are finite and, with those that are
there, in order. -/
theorem acceptsAll_points (hl : isLifted log id = false)
    (ho : (pointsOf log id).Pairwise fun p q => p.time ≤ q.time) (ps : List (Point α)) :
    AcceptsAll log (ps.map (.point id)) ↔ (∀ p ∈ ps, p.isFinite = true) ∧
      (pointsOf log id ++ ps).Pairwise fun p q => p.time ≤ q.time := by
  induction ps generalizing log with
  | nil => simp [AcceptsAll, ho]
  | cons p ps ih =>
    have hp : pointsOf (log ++ [.point id p]) id = pointsOf log id ++ [p] := by
      simp [Name.sameKey_refl]
    have hsplit : pointsOf log id ++ p :: ps = (pointsOf log id ++ [p]) ++ ps :=
      List.append_cons _ _ _
    simp only [List.map_cons, AcceptsAll, Accepts, hl, true_and, List.forall_mem_cons, hsplit]
    by_cases hord : (pointsOf log id ++ [p]).Pairwise fun p q => p.time ≤ q.time
    · rw [ih (by simpa using hl) (by rwa [hp]), hp, and_iff_left ((pairwise_concat_iff ho).mp hord),
        and_assoc]
    · have hnot : ¬ (pointsOf log id ++ [p] ++ ps).Pairwise fun p q => p.time ≤ q.time :=
        fun h => hord (List.pairwise_append.mp h).1
      rw [← pairwise_concat_iff ho]
      exact iff_of_false (fun h => hord h.1.2) fun h => hnot h.2

end Gesture.Log

/-- Contacts with the points that they bring, in the order of a recording. -/
abbrev Contacts (α : Type) := List (Name × List (Point α))

namespace Contacts

/-- What a contact puts into the log: its points, and that it is lifted. -/
def entriesOf (c : Name × List (Point α)) : List (Gesture.Entry α) :=
  c.2.map (.point c.1) ++ [.up c.1]

def log (cs : Contacts α) : List (Gesture.Entry α) :=
  cs.flatMap entriesOf

/-- A contact brings points and is none of those before it, or brings none and is one of them. -/
def FreshAfter (before : Contacts α) (c : Name × List (Point α)) : Prop :=
  c.2 ≠ [] ∧ c.1.key ∉ Keyed.marks before ∨ c.2 = [] ∧ c.1.key ∈ Keyed.marks before

def Fresh (cs : Contacts α) : Prop :=
  ∀ before c after, cs = before ++ c :: after → FreshAfter before c

/-- The contacts that bring points. -/
def pressed (cs : Contacts α) : Contacts α :=
  cs.filter fun c => !c.2.isEmpty

variable {cs : Contacts α} {c : Name × List (Point α)} {id : Name}

theorem log_concat (cs : Contacts α) (c : Name × List (Point α)) :
    log (cs ++ [c]) = log cs ++ entriesOf c := by
  simp [log]

theorem marks_concat (cs : Contacts α) (c : Name × List (Point α)) :
    Keyed.marks (cs ++ [c]) = Keyed.marks cs ++ [c.1.key] := by
  simp [Keyed.marks]

theorem fresh_iff_forall_fin : Fresh cs ↔ ∀ i : Fin cs.length, FreshAfter (cs.take i) cs[i] := by
  constructor
  · intro h i
    refine h _ _ (cs.drop (i + 1)) ?_
    rw [Fin.getElem_fin, ← List.drop_eq_getElem_cons, List.take_append_drop]
  · rintro h before c after rfl
    have hc := h ⟨before.length, by simp⟩
    simpa only [Fin.getElem_fin, List.take_left, List.getElem_append_right (Nat.le_refl _),
      Nat.sub_self, List.getElem_cons_zero] using hc

instance (before : Contacts α) (c : Name × List (Point α)) : Decidable (FreshAfter before c) :=
  inferInstanceAs (Decidable (_ ∨ _))

instance (cs : Contacts α) : Decidable cs.Fresh :=
  decidable_of_iff _ fresh_iff_forall_fin.symm

theorem fresh_concat_iff : Fresh (cs ++ [c]) ↔ Fresh cs ∧ FreshAfter cs c := by
  constructor
  · intro h
    refine ⟨fun before d after hcs => h before d (after ++ [c]) ?_, h cs c [] rfl⟩
    rw [hcs, List.append_assoc, List.cons_append]
  · rintro ⟨h, hc⟩ before d after hcs
    rcases after.eq_nil_or_concat with rfl | ⟨after, last, rfl⟩
    · obtain ⟨rfl, hd⟩ := List.append_inj' hcs rfl
      obtain rfl : c = d := List.head_eq_of_cons_eq hd
      exact hc
    · rw [List.concat_eq_append, ← List.cons_append, ← List.append_assoc] at hcs
      exact h before d after (List.append_inj' hcs rfl).1

theorem pointsOf_entriesOf (c : Name × List (Point α)) (id : Name) :
    Log.pointsOf (entriesOf c) id = if c.1.sameKey id then c.2 else [] := by
  have hpoints : (c.2.map (Gesture.Entry.point c.1)).filterMap (Gesture.Entry.pointFor? id) =
      if c.1.sameKey id then c.2 else [] := by
    rw [List.filterMap_map]
    by_cases h : c.1.sameKey id = true <;> simp [Function.comp_def, Gesture.Entry.pointFor?, h]
  rw [entriesOf, Log.pointsOf, List.filterMap_append, hpoints]
  simp [Gesture.Entry.pointFor?]

theorem isLifted_entriesOf (c : Name × List (Point α)) (id : Name) :
    Log.isLifted (entriesOf c) id = c.1.sameKey id := by
  simp [entriesOf, Log.isLifted, Gesture.Entry.lifts]

theorem isLifted_log_iff (cs : Contacts α) (id : Name) :
    Log.isLifted (log cs) id = true ↔ id.key ∈ Keyed.marks cs := by
  induction cs using List.reverseRecOn with
  | nil => simp [log, Log.isLifted, Keyed.marks]
  | append_singleton cs c ih =>
    rw [log_concat, Log.isLifted_append, isLifted_entriesOf, marks_concat, Bool.or_eq_true, ih,
      Name.sameKey_iff, List.mem_append, List.mem_singleton, eq_comm]

/-- A contact has points in the log exactly if the recording names it. -/
theorem pointsOf_log_ne_nil_iff (h : Fresh cs) (id : Name) :
    Log.pointsOf (log cs) id ≠ [] ↔ id.key ∈ Keyed.marks cs := by
  induction cs using List.reverseRecOn with
  | nil => simp [log, Log.pointsOf, Keyed.marks]
  | append_singleton cs c ih =>
    obtain ⟨hcs, hc⟩ := fresh_concat_iff.mp h
    rw [log_concat, Log.pointsOf_append, pointsOf_entriesOf, marks_concat, List.mem_append,
      List.mem_singleton, ← ih hcs, ne_eq, List.append_eq_nil_iff, not_and_or]
    rcases hc with ⟨hne, _⟩ | ⟨hnil, hmem⟩
    · refine or_congr_right ?_
      by_cases hk : c.1.sameKey id = true
      · rw [if_pos hk]
        exact iff_of_true hne (Name.sameKey_iff.mp hk).symm
      · rw [if_neg hk]
        exact iff_of_false (fun hn => hn rfl) fun he => hk (Name.sameKey_iff.mpr he.symm)
    · have hold : id.key = c.1.key → Log.pointsOf (log cs) id ≠ [] :=
        fun he => (ih hcs).mpr (he ▸ hmem)
      rw [hnil, ite_self]
      exact or_congr_right' fun hn => iff_of_false (fun h => h rfl) fun he => hn (hold he)

variable [Scalar α]

/-- Where all contacts have been lifted, a contact can be taken if it brings points in order and is
a new one, or brings none and is one of those. -/
theorem acceptsAll_entriesOf {l : List (Gesture.Entry α)}
    (hs : ∀ id, Log.isLifted l id = true ↔ Log.pointsOf l id ≠ []) :
    Log.AcceptsAll l (entriesOf c) ↔ (∀ p ∈ c.2, p.isFinite = true) ∧
      (c.2.Pairwise fun p q => p.time ≤ q.time) ∧
      (c.2 ≠ [] ∧ Log.pointsOf l c.1 = [] ∨ c.2 = [] ∧ Log.pointsOf l c.1 ≠ []) := by
  obtain ⟨id, ps⟩ := c
  cases ps with
  | nil => simp [entriesOf, Log.AcceptsAll, Log.Accepts]
  | cons p ps =>
    by_cases hn : Log.pointsOf l id = []
    · have hl : Log.isLifted l id = false := by
        rw [← Bool.not_eq_true]
        exact fun h => (hs id).mp h hn
      have hup : Log.Accepts (l ++ (p :: ps).map (.point id)) (.up id) := by
        show Log.pointsOf _ id ≠ []
        simp [Log.pointsOf, Gesture.Entry.pointFor?, Name.sameKey_refl]
      have hlast : Log.AcceptsAll (l ++ (p :: ps).map (.point id)) [.up id] := ⟨hup, trivial⟩
      rw [entriesOf, Log.acceptsAll_append, Log.acceptsAll_points hl (by simp [hn]),
        and_iff_left hlast, hn, List.nil_append]
      simp
    · have hl : Log.isLifted l id = true := (hs id).mpr hn
      have hnot : ¬ Log.AcceptsAll l (entriesOf (id, p :: ps)) := by
        intro h
        have hfirst := h.1.1
        rw [hl] at hfirst
        cases hfirst
      simp [hnot, hn]

/-- A gesture can take the log of a recording exactly when all points are finite, those of each
contact are in order, and the contacts come fresh. -/
theorem acceptsAll_log_iff (cs : Contacts α) :
    Log.AcceptsAll [] (log cs) ↔ (∀ c ∈ cs, ∀ p ∈ c.2, p.isFinite = true) ∧
      (∀ c ∈ cs, c.2.Pairwise fun p q => p.time ≤ q.time) ∧ Fresh cs := by
  induction cs using List.reverseRecOn with
  | nil => simp [log, Log.AcceptsAll, Fresh]
  | append_singleton cs c ih =>
    rw [log_concat, Log.acceptsAll_append, ih, List.nil_append, fresh_concat_iff]
    simp only [List.forall_mem_append, List.forall_mem_singleton]
    by_cases hf : Fresh cs
    · have hpoints := pointsOf_log_ne_nil_iff hf c.1
      rw [acceptsAll_entriesOf fun id =>
        (isLifted_log_iff cs id).trans (pointsOf_log_ne_nil_iff hf id).symm]
      rw [FreshAfter, ← hpoints, ne_eq (Log.pointsOf (log cs) c.1), not_not]
      tauto
    · exact iff_of_false (fun h => hf h.1.2.2) fun h => hf h.2.2.1

omit [Scalar α] in
theorem key_mem_marks_of_mem_contacts (h : Fresh cs) (hid : id ∈ Log.contacts (log cs)) :
    id.key ∈ Keyed.marks cs := by
  rw [← pointsOf_log_ne_nil_iff h, ← Log.any_contacts_iff]
  exact List.any_eq_true.mpr ⟨id, hid, Name.sameKey_refl id⟩

omit [Scalar α] in
theorem contacts_entriesOf {l : List (Gesture.Entry α)} (hne : c.2 ≠ [])
    (hl : Log.pointsOf l c.1 = []) : Log.contacts (l ++ entriesOf c) = Log.contacts l ++ [c.1] := by
  obtain ⟨id, ps⟩ := c
  cases ps with
  | nil => exact absurd rfl hne
  | cons p ps =>
    have hnew : ¬ (Log.contacts l).any id.sameKey = true :=
      fun h => (Log.any_contacts_iff l id).mp h hl
    have hfirst : Log.contacts (l ++ [.point id p]) = Log.contacts l ++ [id] := by
      rw [Log.contacts_append_point, if_neg hnew]
    have hthere : (Log.contacts (l ++ [.point id p])).any id.sameKey = true := by
      rw [hfirst]
      simp [Name.sameKey_refl]
    rw [entriesOf, ← List.append_assoc, Log.contacts_append_up, List.map_cons, List.append_cons,
      Log.contacts_append_points hthere, hfirst]

omit [Scalar α] in
theorem pointsOf_log_eq_nil (h : Fresh cs) (hn : id.key ∉ Keyed.marks cs) :
    Log.pointsOf (log cs) id = [] := by
  by_contra hp
  exact hn ((pointsOf_log_ne_nil_iff h id).mp hp)

omit [Scalar α] in
/-- What comes fresh leaves the strokes alone that are there. -/
theorem stroke_log_concat_of_mem (h : Fresh (cs ++ [c])) (hid : id ∈ Log.contacts (log cs))
    (dpi : α) : Log.stroke dpi (log (cs ++ [c])) id = Log.stroke dpi (log cs) id := by
  obtain ⟨hcs, hc⟩ := fresh_concat_iff.mp h
  have hmem := key_mem_marks_of_mem_contacts hcs hid
  have hlifted := (isLifted_log_iff cs id).mpr hmem
  have hpoints : (if c.1.sameKey id then c.2 else []) = [] := by
    rcases hc with ⟨_, hnot⟩ | ⟨hnil, _⟩
    · refine if_neg fun hk => hnot ?_
      rw [Name.sameKey_iff.mp hk]
      exact hmem
    · rw [hnil, ite_self]
  rw [Log.stroke, Log.stroke, log_concat, Log.pointsOf_append, pointsOf_entriesOf, hpoints,
    Log.isLifted_append, hlifted, List.append_nil, Bool.true_or]

omit [Scalar α] in
theorem stroke_log_concat_self (h : Fresh cs) (hn : c.1.key ∉ Keyed.marks cs) (dpi : α) :
    Log.stroke dpi (log (cs ++ [c])) c.1 = ⟨dpi, c.2, true⟩ := by
  rw [Log.stroke, log_concat, Log.pointsOf_append, pointsOf_entriesOf, pointsOf_log_eq_nil h hn,
    Log.isLifted_append, isLifted_entriesOf, Name.sameKey_refl, if_pos rfl, Bool.or_true,
    List.nil_append]

omit [Scalar α] in
/-- Nothing of a recording is lost in the gesture that stands for its log, and nothing is added:
it has the contacts that bring points, in their order, each with its points and lifted. -/
theorem strokes_log (h : Fresh cs) (dpi : α) :
    ((Log.contacts (log cs)).map fun id => (id, Log.stroke dpi (log cs) id)) =
      (pressed cs).map fun c => (c.1, ⟨dpi, c.2, true⟩) := by
  induction cs using List.reverseRecOn with
  | nil => rfl
  | append_singleton cs c ih =>
    obtain ⟨hcs, hc⟩ := fresh_concat_iff.mp h
    have hold : ((Log.contacts (log cs)).map fun id => (id, Log.stroke dpi (log (cs ++ [c])) id)) =
        (pressed cs).map fun c => (c.1, ⟨dpi, c.2, true⟩) := by
      rw [← ih hcs]
      exact List.map_congr_left fun id hid =>
        congrArg (Prod.mk id) (stroke_log_concat_of_mem h hid dpi)
    -- The last contact is a new one, or it is there already and brings nothing.
    rcases hc with ⟨hne, hnot⟩ | ⟨hnil, _⟩
    · have hcontacts : Log.contacts (log (cs ++ [c])) = Log.contacts (log cs) ++ [c.1] := by
        rw [log_concat, contacts_entriesOf hne (pointsOf_log_eq_nil hcs hnot)]
      rw [hcontacts, List.map_append, hold, List.map_singleton,
        stroke_log_concat_self hcs hnot]
      simp [pressed, hne]
    · have hcontacts : Log.contacts (log (cs ++ [c])) = Log.contacts (log cs) := by
        rw [log_concat, entriesOf, hnil, List.map_nil, List.nil_append, Log.contacts_append_up]
      rw [hcontacts, hold]
      simp [pressed, hnil]

end Contacts

end StrayTouch
