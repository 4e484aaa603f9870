import StrayTouch.Proofs.Memory.Basic

/-!
The steps of the touches, on memory and on a gesture by itself, agree: what they do at the places of
one gesture is what they do to that gesture.
-/
namespace StrayTouch.Memory

open Steps (Match Agree)

variable {α κ : Type} {K : κ → Prop} {base m : Memory α κ} {n place : Nat} {g : Gesture α}
  {p : Gesture.Placed α} {key : Name}

theorem found_run {β : Type} {xs : List β} {i : Nat} {x : β} (h : xs[i]? = some x)
    (m : Memory α κ) : (found xs i).run m = .ok x m := by
  rw [found, h]
  rfl

theorem read_run (h : m.shownGestures[n]? = some g) : (read n).run m = .ok g m := by
  rw [read, EStateM.run_bind, EStateM.run_get]
  exact found_run h m

theorem place?_run (h : m.gestures[n]? = some p) (key : Name) :
    (place? n key).run m = .ok (Keyed.get? p.contacts key) m := by
  rw [place?, EStateM.run_bind, EStateM.run_get]
  simp only [EStateM.run_bind, found_run h]
  rfl

theorem read_agree : Agree (base.Stands K n) Eq (read n) get := by
  intro m g h
  rw [read_run h.shown_self]
  exact .ok rfl h

theorem modify_run (h : m.gestures[n]? = some p) (f : Gesture.Placed α → Gesture.Placed α) :
    (modify (fun m : Memory α κ => m.withGestures (m.gestures.modify n f)) :
        Steps (Memory α κ) Unit).run m =
      .ok () (m.withGestures (m.gestures.set n (f p))) := by
  have hset : m.gestures.modify n f = m.gestures.set n (f p) := by
    rw [List.modify_eq_set_getElem?, h]
    rfl
  rw [EStateM.run_modify, hset]

theorem setPhase_agree (phase : Phase) :
    Agree (base.Stands K n) Eq (setPhase n phase)
      (modify fun g : Gesture α => g.withPhase phase) := by
  intro m g h
  obtain ⟨p, hp, rfl⟩ := h.exists_placed
  rw [setPhase, modify_run hp, EStateM.run_modify]
  exact .ok rfl (h.withGesture_of_places hp rfl)

theorem onStroke_run {s : Stroke α} (h : m.strokes[place]? = some s)
    (steps : Steps (Stroke α) Unit) :
    (onStroke place steps).run m =
      match steps.run s with
      | .ok _ after => .ok () (m.withStrokes (m.strokes.set place after))
      | .error f after => .error f (m.withStrokes (m.strokes.set place after)) := by
  rw [EStateM.run, onStroke]
  cases hs : steps.run s <;> simp [h, hs]

/-- Steps on the stroke of a contact. -/
theorem onStroke_match (h : base.Stands K n m g) (hp : m.gestures[n]? = some p)
    (hkey : Keyed.get? p.contacts key = some place) (steps : Steps (Stroke α) Unit) :
    ∃ s, g.stroke? key = some s ∧
      Match (base.Stands K n) Eq ((onStroke place steps).run m)
        ((Gesture.onStroke key s steps).run g) := by
  have hmem := List.mem_of_getElem? hp
  have hplace := mem_places_of_get? hkey
  have hlt := h.apart.within p hmem place hplace
  obtain ⟨q, hq, rfl⟩ := h.exists_placed
  obtain rfl : p = q := Option.some.inj (hp.symm.trans hq)
  refine ⟨m.strokes[place], ?_, ?_⟩
  · rw [shown_stroke?, hkey, Option.map_some, List.getD_eq_getElem?_getD,
      List.getElem?_eq_getElem hlt, Option.getD_some]
  · have hafter : ∀ after : Stroke α, base.Stands K n
        (m.withStrokes (m.strokes.set place after)) ((m.shown p).putStroke key after) := by
      intro after
      rw [← shown_set (h.apart.distinct p hmem) hkey hlt]
      refine h.withStrokes hp (Nat.le_of_eq List.length_set.symm) fun other _ hother d => ?_
      exact getD_set_ne fun he => hother (he ▸ hplace)
    rw [onStroke_run (List.getElem?_eq_getElem hlt)]
    simp only [Gesture.onStroke, EStateM.run]
    cases steps m.strokes[place] with
    | ok _ after => exact .ok rfl (hafter after)
    | error f after => exact .error f (hafter after)

theorem onStroke_freeze_run (h : place < m.strokes.length) :
    (onStroke place (modify Stroke.freeze)).run m =
      .ok () (m.withStrokes (m.strokes.modify place Stroke.freeze)) := by
  rw [onStroke_run (List.getElem?_eq_getElem h), EStateM.run_modify,
    List.modify_eq_set_getElem?, List.getElem?_eq_getElem h]
  rfl

theorem forM_freeze_run {places : List Nat} (h : ∀ place ∈ places, place < m.strokes.length) :
    (forM places fun place => onStroke place (modify Stroke.freeze)).run m =
      .ok () (m.withStrokes (places.foldl (fun ss place => ss.modify place Stroke.freeze)
        m.strokes)) := by
  induction places generalizing m with
  | nil => rfl
  | cons place places ih =>
    obtain ⟨hplace, hrest⟩ := List.forall_mem_cons.mp h
    rw [List.forM_cons, EStateM.run_bind, onStroke_freeze_run hplace]
    refine ih fun other ho => ?_
    rw [withStrokes, List.length_modify]
    exact hrest other ho

theorem length_foldl_freeze (strokes : List (Stroke α)) (places : List Nat) :
    (places.foldl (fun ss place => ss.modify place Stroke.freeze) strokes).length =
      strokes.length := by
  induction places generalizing strokes with
  | nil => rfl
  | cons place places ih => rw [List.foldl_cons, ih, List.length_modify]

/-- The strokes at some places are frozen, and no other ones. -/
theorem getElem?_foldl_freeze (strokes : List (Stroke α)) (places : List Nat) (i : Nat) :
    (places.foldl (fun ss place => ss.modify place Stroke.freeze) strokes)[i]? =
      strokes[i]?.map fun s => if i ∈ places then s.freeze else s := by
  induction places generalizing strokes with
  | nil => simp
  | cons place places ih =>
    rw [List.foldl_cons, ih, List.getElem?_modify, Option.map_eq_map, Option.map_map]
    refine congrArg (fun f => Option.map f strokes[i]?) (funext fun s => ?_)
    by_cases hi : place = i <;> by_cases hr : i ∈ places <;>
      simp [hi, hr, Stroke.freeze, eq_comm (a := i)]

theorem freezeAll_agree :
    Agree (base.Stands K n) Eq (freezeAll n) (modify Gesture.freezeAll) := by
  intro m g h
  obtain ⟨p, hp, rfl⟩ := h.exists_placed
  have hwithin := h.apart.within p (List.mem_of_getElem? hp)
  have hrun : (freezeAll n).run m = .ok () (m.withStrokes
      (p.places.foldl (fun ss place => ss.modify place Stroke.freeze) m.strokes)) := by
    rw [freezeAll, EStateM.run_bind, EStateM.run_get]
    simp only [EStateM.run_bind, found_run hp]
    exact forM_freeze_run hwithin
  have hlength := length_foldl_freeze m.strokes p.places
  have hshown : (m.withStrokes (p.places.foldl (fun ss place => ss.modify place Stroke.freeze)
      m.strokes)).shown p = (m.shown p).freezeAll := by
    rw [shown, Gesture.freezeAll, shown, Gesture.mk.injEq, List.map_map]
    refine ⟨rfl, rfl, List.map_congr_left fun c hc => ?_⟩
    have hplace : c.2 ∈ p.places := List.mem_map_of_mem hc
    have hlt := hwithin c.2 hplace
    simp [withStrokes, List.getD_eq_getElem?_getD, getElem?_foldl_freeze, hplace, hlt]
  rw [hrun, EStateM.run_modify]
  refine .ok rfl (hshown ▸ h.withStrokes hp (Nat.le_of_eq hlength.symm) fun place _ hno d => ?_)
  simp [List.getD_eq_getElem?_getD, getElem?_foldl_freeze, hno]

theorem lay_run (m : Memory α κ) (s : Stroke α) :
    (lay s).run m = .ok m.strokes.length (m.withStrokes (m.strokes ++ [s])) := rfl

/-- A stroke that is laid at a place of its own belongs to no gesture yet. -/
theorem Stands.lay (h : base.Stands K n m g) (s : Stroke α) :
    base.Stands K n (m.withStrokes (m.strokes ++ [s])) g := by
  obtain ⟨p, hp, rfl⟩ := h.exists_placed
  have hold : ∀ place < m.strokes.length, ∀ d,
      (m.strokes ++ [s]).getD place d = m.strokes.getD place d := by
    intro place hlt d
    rw [List.getD_eq_getElem?_getD, List.getD_eq_getElem?_getD, List.getElem?_append_left hlt]
  have hshown : (m.withStrokes (m.strokes ++ [s])).shown p = m.shown p :=
    shown_congr fun place hplace =>
      hold place (h.apart.within p (List.mem_of_getElem? hp) place hplace) _
  rw [← hshown]
  refine h.withStrokes hp (by simp) fun place hlt _ => hold place hlt

/-- A contact is entered with a place at which no stroke of a gesture has been. -/
theorem enter_match {s : Stroke α} (h : base.Stands K n m g) (hp : m.gestures[n]? = some p)
    (hkey : Keyed.get? p.contacts key = none) (hs : m.strokes[place]? = some s)
    (hfresh : ∀ other ∈ m.gestures, place ∉ other.places) :
    Match (base.Stands K n) Eq ((enter n key place).run m)
      ((modify fun g => g.putStroke key s : Steps (Gesture α) Unit).run g) := by
  obtain ⟨q, hq, rfl⟩ := h.exists_placed
  obtain rfl : p = q := Option.some.inj (hp.symm.trans hq)
  have hmem := List.mem_of_getElem? hp
  rw [enter, modify_run hp, EStateM.run_modify, ← shown_enter p key hs]
  refine .ok rfl (h.withGesture _ ?_ ?_ ?_) <;> rw [places_enter hkey]
  · intro other ho
    rcases List.mem_append.mp ho with ho | ho
    · exact h.apart.within p hmem other ho
    · obtain rfl := List.mem_singleton.mp ho
      exact (List.getElem?_eq_some_iff.mp hs).1
  · refine List.nodup_append.mpr ⟨h.apart.distinct p hmem, List.nodup_singleton _, ?_⟩
    rintro a ha b hb rfl
    exact hfresh p hmem (List.mem_singleton.mp hb ▸ ha)
  · intro i other hi ho
    refine List.disjoint_append_left.mpr ⟨h.apart.disjoint hp ho (Ne.symm hi), ?_⟩
    exact List.singleton_disjoint.mpr (hfresh other (List.mem_of_getElem? ho))

theorem liftContact_agree (id : Value) :
    Agree (base.Stands K n) Eq (liftContact n id) (Gesture.liftContact id) := by
  unfold liftContact Gesture.liftContact
  refine read_agree.bind ?_
  rintro g _ rfl
  refine (Agree.of g.requireCapturing).bind fun _ _ _ => ?_
  refine (Agree.of id.toName).bind ?_
  rintro key _ rfl
  intro m g h
  obtain ⟨p, hp, hg⟩ := h.exists_placed
  simp only [EStateM.run_bind, place?_run hp, EStateM.run_get]
  cases hkey : Keyed.get? p.contacts key with
  | none =>
    have hnone : g.stroke? key = none := by rw [← hg, shown_stroke?, hkey, Option.map_none]
    rw [hnone]
    exact .error (.unknownContact key) h
  | some place =>
    obtain ⟨s, hs, hmatch⟩ := onStroke_match h hp hkey (modify Stroke.freeze)
    rw [hs]
    exact hmatch

theorem giveUp_agree :
    Agree (base.Stands K n) Eq (giveUp n) (Gesture.giveUp : Steps (Gesture α) Unit) := by
  unfold giveUp Gesture.giveUp
  refine read_agree.bind ?_
  rintro g _ rfl
  split
  · exact fun _ _ h => .error .alreadyDecided h
  · exact freezeAll_agree.bind fun _ _ _ => setPhase_agree .decided

variable [Scalar α]

/-- A contact without a stroke gets one at a place where no stroke has been. -/
theorem newStroke_match (h : base.Stands K n m g) (hp : m.gestures[n]? = some p)
    (hkey : Keyed.get? p.contacts key = none) (point : Point α) :
    Match (base.Stands K n) Eq
      ((do
        let place ← lay (Stroke.empty (← read n).dpi)
        onStroke place (Stroke.take point)
        enter n key place : Steps (Memory α κ) Unit).run m)
      ((do
        let fresh ← Steps.of ((Stroke.take point).madeOf (Stroke.empty g.dpi))
        modify fun g => g.putStroke key fresh : Steps (Gesture α) Unit).run g) := by
  have hfresh : ∀ other ∈ m.gestures, m.strokes.length ∉ other.places :=
    fun other ho hin => Nat.lt_irrefl _ (h.apart.within other ho _ hin)
  have hlaid : (m.strokes ++ [Stroke.empty g.dpi])[m.strokes.length]? =
      some (Stroke.empty g.dpi) := by simp
  have hset : ∀ s : Stroke α, (m.strokes ++ [Stroke.empty g.dpi]).set m.strokes.length s =
      m.strokes ++ [s] := by
    intro s
    rw [List.set_append_right _ _ (Nat.le_refl _), Nat.sub_self, List.set_cons_zero]
  rw [EStateM.run_bind, read_run h.shown_self]
  simp only [EStateM.run_bind, lay_run]
  rw [onStroke_run (m := m.withStrokes (m.strokes ++ [Stroke.empty g.dpi])) hlaid,
    Stroke.madeOf_take, Stroke.take_run]
  cases happend : (Stroke.empty g.dpi).append point with
  | error f =>
    simp only [Steps.allOrNothing, withStrokes, hset]
    exact .error f (h.lay _)
  | ok after =>
    simp only [Steps.allOrNothing, Steps.run_of_ok, withStrokes, hset]
    refine enter_match (h.lay after) hp hkey ?_ hfresh
    exact List.getElem?_concat_length

theorem takePoint_agree (id : Value) (sample : Sample) :
    Agree (base.Stands K n) Eq (takePoint n id sample) (Gesture.takePoint id sample) := by
  unfold takePoint Gesture.takePoint
  refine read_agree.bind ?_
  rintro g _ rfl
  refine (Agree.of g.requireCapturing).bind fun _ _ _ => ?_
  refine (Agree.of sample.toPoint).bind ?_
  rintro point _ rfl
  refine (Agree.of id.toName).bind ?_
  rintro key _ rfl
  intro m g h
  obtain ⟨p, hp, hg⟩ := h.exists_placed
  simp only [EStateM.run_bind, place?_run hp, EStateM.run_get]
  cases hkey : Keyed.get? p.contacts key with
  | none =>
    have hnone : g.stroke? key = none := by rw [← hg, shown_stroke?, hkey, Option.map_none]
    rw [hnone]
    exact newStroke_match h hp hkey point
  | some place =>
    obtain ⟨s, hs, hmatch⟩ := onStroke_match h hp hkey (Stroke.take point)
    rw [hs]
    exact hmatch

end StrayTouch.Memory
