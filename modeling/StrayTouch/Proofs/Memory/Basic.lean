import StrayTouch.Memory.Basic
import StrayTouch.Proofs.Memory.Agree

/-!
What gestures share and what they do not. No place in memory is that of two strokes; so long as this
is so, steps that write at the places of one gesture do to it what the steps on a gesture by itself
do, and every other gesture, the configuration and its tables stay as they are.
-/
namespace StrayTouch

variable {α κ : Type}

namespace Keyed

theorem put_map_snd {β γ : Type} (m : List (Name × β)) (key : Name) (value : β) (f : β → γ) :
    (put m key value).map (fun e => (e.1, f e.2)) =
      put (m.map fun e => (e.1, f e.2)) key (f value) := by
  induction m with
  | nil => rfl
  | cons e m ih =>
    simp only [put, List.map_cons]
    split
    · rfl
    · rw [List.map_cons, ih]

/-- Of what entries with distinct values lead to, a change at the value of one key is a change of
that entry. -/
theorem map_eq_put_of_get? {β γ : Type} {m : List (Name × β)} {key : Name} {x : β} {f g : β → γ}
    (hd : (m.map Prod.snd).Nodup) (hkey : get? m key = some x) (h : ∀ y ≠ x, f y = g y) :
    m.map (fun e => (e.1, f e.2)) = put (m.map fun e => (e.1, g e.2)) key (f x) := by
  induction m with
  | nil => cases hkey
  | cons e m ih =>
    obtain ⟨hnew, hd⟩ := List.nodup_cons.mp hd
    simp only [get?] at hkey
    simp only [List.map_cons, put]
    split at hkey
    next hk =>
      obtain rfl := Option.some.inj hkey
      rw [if_pos hk]
      congr 1
      refine List.map_congr_left fun d hd => ?_
      rw [h d.2 fun heq => hnew (heq ▸ List.mem_map_of_mem hd)]
    next hk =>
      have hne : e.2 ≠ x := by
        rintro rfl
        obtain ⟨k, _, hmem⟩ := mem_of_get? hkey
        exact hnew (List.mem_map.mpr ⟨_, hmem, rfl⟩)
      rw [if_neg hk, ih hd hkey, h e.2 hne]

end Keyed

namespace Memory

/-- Every stroke of a gesture has its place, and no place is that of two strokes, whether they
belong to one gesture or to two. -/
structure Apart (m : Memory α κ) : Prop where
  within : ∀ g ∈ m.gestures, ∀ place ∈ g.places, place < m.strokes.length
  distinct : ∀ g ∈ m.gestures, g.places.Nodup
  disjoint : ∀ {i j : Nat} {g h : Gesture.Placed α}, m.gestures[i]? = some g →
    m.gestures[j]? = some h → i ≠ j → g.places.Disjoint h.places

variable {m after : Memory α κ} {p q : Gesture.Placed α} {n place : Nat} {key : Name}

theorem Apart.of_places (h : m.Apart) (hlength : m.strokes.length ≤ after.strokes.length)
    (hplaces : after.gestures.map Gesture.Placed.places = m.gestures.map Gesture.Placed.places) :
    after.Apart := by
  have hmem : ∀ g ∈ after.gestures, ∃ b ∈ m.gestures, b.places = g.places := by
    intro g hg
    have hm : g.places ∈ after.gestures.map Gesture.Placed.places := List.mem_map_of_mem hg
    rwa [hplaces, List.mem_map] at hm
  have hget : ∀ {i : Nat} {g : Gesture.Placed α}, after.gestures[i]? = some g →
      ∃ b, m.gestures[i]? = some b ∧ b.places = g.places := by
    intro i g hg
    have hi := congrArg (·[i]?) hplaces
    simp only [List.getElem?_map, hg, Option.map_some] at hi
    obtain ⟨b, hb, he⟩ := Option.map_eq_some_iff.mp hi.symm
    exact ⟨b, hb, he⟩
  refine ⟨fun g hg place hp => ?_, fun g hg => ?_, fun hg hh hne => ?_⟩
  · obtain ⟨b, hb, he⟩ := hmem g hg
    exact Nat.lt_of_lt_of_le (h.within b hb place (he ▸ hp)) hlength
  · obtain ⟨b, hb, he⟩ := hmem g hg
    exact he ▸ h.distinct b hb
  · obtain ⟨b, hb, he⟩ := hget hg
    obtain ⟨d, hd, hf⟩ := hget hh
    exact he ▸ hf ▸ h.disjoint hb hd hne

/-- A gesture is shown as it was where the strokes at its places are. -/
theorem shown_congr (h : ∀ place ∈ p.places,
    after.strokes.getD place (Stroke.empty p.dpi) = m.strokes.getD place (Stroke.empty p.dpi)) :
    after.shown p = m.shown p := by
  rw [shown, shown, Gesture.mk.injEq]
  refine ⟨rfl, rfl, List.map_congr_left fun c hc => ?_⟩
  rw [h c.2 (List.mem_map_of_mem hc)]

/-- Where the gesture of a handle is another one and those of the other handles are shown as they
were, all gestures are shown so. -/
theorem shownGestures_eq_set (hg : after.gestures = m.gestures.set n p)
    (hothers : ∀ i g, i ≠ n → m.gestures[i]? = some g → after.shown g = m.shown g) :
    after.shownGestures = m.shownGestures.set n (after.shown p) := by
  refine List.ext_getElem? fun i => ?_
  rw [shownGestures, shownGestures, hg, List.getElem?_map]
  by_cases hi : n = i
  · subst hi
    simp [List.getElem?_set]
  · rw [List.getElem?_set_ne hi, List.getElem?_set_ne hi, List.getElem?_map]
    cases hm : m.gestures[i]? with
    | none => rfl
    | some g => rw [Option.map_some, Option.map_some, hothers i g (Ne.symm hi) hm]

/-- A memory in which the gesture of one handle has been changed from what another memory has: the
shelf and the settings are as they were, and so is the gesture of every other handle. -/
structure Stands (K : κ → Prop) (base : Memory α κ) (n : Nat) (m : Memory α κ) (g : Gesture α) :
    Prop where
  shelf : m.shelf = base.shelf
  settings : m.settings = base.settings
  gestures : m.shownGestures = base.shownGestures.set n g
  begun : n < base.gestures.length
  apart : m.Apart
  kept : K m.kept

variable {K : κ → Prop} {base : Memory α κ} {g : Gesture α}

theorem stands_self (hapart : base.Apart) (hkept : K base.kept)
    (hg : base.shownGestures[n]? = some g) : base.Stands K n base g := by
  obtain ⟨hlt, hn⟩ := List.getElem?_eq_some_iff.mp hg
  refine ⟨rfl, rfl, ?_, ?_, hapart, hkept⟩
  · rw [← hn, List.set_getElem_self]
  · simpa [shownGestures] using hlt

namespace Stands

theorem length_gestures (h : base.Stands K n m g) : m.gestures.length = base.gestures.length := by
  simpa [shownGestures] using congrArg List.length h.gestures

theorem config (h : base.Stands K n m g) : m.config = base.config := by
  rw [Memory.config, Memory.config, h.shelf, h.settings]

theorem shown_self (h : base.Stands K n m g) : m.shownGestures[n]? = some g := by
  have hlt : n < base.shownGestures.length := by simpa [shownGestures] using h.begun
  rw [h.gestures, List.getElem?_set_self hlt]

theorem exists_placed (h : base.Stands K n m g) :
    ∃ p, m.gestures[n]? = some p ∧ m.shown p = g := by
  have hn := h.shown_self
  rw [shownGestures, List.getElem?_map] at hn
  exact Option.map_eq_some_iff.mp hn

/-- Another gesture at the handle, and no change to what the others show. -/
theorem change (h : base.Stands K n m g) (hshelf : after.shelf = m.shelf)
    (hsettings : after.settings = m.settings) (hkept : after.kept = m.kept)
    (hgestures : after.gestures = m.gestures.set n p)
    (hothers : ∀ i g, i ≠ n → m.gestures[i]? = some g → after.shown g = m.shown g)
    (hapart : after.Apart) : base.Stands K n after (after.shown p) where
  shelf := hshelf.trans h.shelf
  settings := hsettings.trans h.settings
  gestures := by
    rw [shownGestures_eq_set hgestures hothers, h.gestures, List.set_set]
  begun := h.begun
  apart := hapart
  kept := hkept ▸ h.kept

theorem withKept (h : base.Stands K n m g) {kept : κ} (hkept : K kept) :
    base.Stands K n (m.withKept kept) g :=
  ⟨h.shelf, h.settings, h.gestures, h.begun, ⟨h.apart.within, h.apart.distinct, h.apart.disjoint⟩,
    hkept⟩

/-- Writing at a place of the gesture of the handle leaves the others alone. -/
theorem withStrokes (h : base.Stands K n m g) (hp : m.gestures[n]? = some p)
    {strokes : List (Stroke α)} (hlength : m.strokes.length ≤ strokes.length)
    (hstrokes : ∀ place < m.strokes.length, place ∉ p.places →
      ∀ d, strokes.getD place d = m.strokes.getD place d) :
    base.Stands K n (m.withStrokes strokes) ((m.withStrokes strokes).shown p) := by
  refine h.change rfl rfl rfl ?_ ?_ (h.apart.of_places hlength rfl)
  · obtain ⟨hlt, hn⟩ := List.getElem?_eq_some_iff.mp hp
    exact (hn ▸ (List.set_getElem_self hlt).symm :)
  · intro i other hi hother
    refine shown_congr fun place hplace => hstrokes place ?_ ?_ _
    · exact h.apart.within other (List.mem_of_getElem? hother) place hplace
    · exact fun hmine => h.apart.disjoint hother hp hi hplace hmine

/-- Another gesture at the handle, the places of which are those of no other gesture. -/
theorem withGesture (h : base.Stands K n m g) (q : Gesture.Placed α)
    (hwithin : ∀ place ∈ q.places, place < m.strokes.length) (hdistinct : q.places.Nodup)
    (hdisjoint : ∀ i other, i ≠ n → m.gestures[i]? = some other → q.places.Disjoint other.places) :
    base.Stands K n (m.withGestures (m.gestures.set n q)) (m.shown q) := by
  refine h.change rfl rfl rfl rfl (fun _ _ _ _ => rfl) ⟨fun other ho => ?_, fun other ho => ?_, ?_⟩
  · rcases List.mem_or_eq_of_mem_set ho with ho | rfl
    · exact h.apart.within other ho
    · exact hwithin
  · rcases List.mem_or_eq_of_mem_set ho with ho | rfl
    · exact h.apart.distinct other ho
    · exact hdistinct
  · intro i j a b ha hb hij
    simp only [withGestures, List.getElem?_set] at ha hb
    by_cases hi : n = i
    · subst hi
      rw [if_neg hij] at hb
      obtain ⟨_, rfl⟩ : n < m.gestures.length ∧ q = a := by simpa using ha
      exact hdisjoint j b (Ne.symm hij) hb
    · rw [if_neg hi] at ha
      by_cases hj : n = j
      · subst hj
        obtain ⟨_, rfl⟩ : n < m.gestures.length ∧ q = b := by simpa using hb
        exact List.disjoint_comm.mp (hdisjoint i a hij ha)
      · rw [if_neg hj] at hb
        exact h.apart.disjoint ha hb hij

/-- A gesture with the same places. -/
theorem withGesture_of_places (h : base.Stands K n m g) (hp : m.gestures[n]? = some p)
    {q : Gesture.Placed α} (hq : q.places = p.places) :
    base.Stands K n (m.withGestures (m.gestures.set n q)) (m.shown q) := by
  have hmem := List.mem_of_getElem? hp
  refine h.withGesture q ?_ ?_ ?_ <;> rw [hq]
  · exact h.apart.within p hmem
  · exact h.apart.distinct p hmem
  · exact fun i other hi ho => h.apart.disjoint hp ho (Ne.symm hi)

end Stands

theorem getD_set_ne {strokes : List (Stroke α)} {s d : Stroke α} {i j : Nat} (h : i ≠ j) :
    (strokes.set i s).getD j d = strokes.getD j d := by
  rw [List.getD_eq_getElem?_getD, List.getD_eq_getElem?_getD, List.getElem?_set_ne h]

theorem mem_places_of_get? (h : Keyed.get? p.contacts key = some place) : place ∈ p.places := by
  obtain ⟨k, _, hk⟩ := Keyed.mem_of_get? h
  exact List.mem_map_of_mem (f := Prod.snd) hk

theorem shown_stroke? (m : Memory α κ) (p : Gesture.Placed α) (key : Name) :
    (m.shown p).stroke? key =
      (Keyed.get? p.contacts key).map fun place => m.strokes.getD place (Stroke.empty p.dpi) :=
  Keyed.get?_map_snd p.contacts (fun place => m.strokes.getD place (Stroke.empty p.dpi)) key

/-- A stroke written at the place of a contact is the stroke of that contact. -/
theorem shown_set {s : Stroke α} (hd : p.places.Nodup) (hp : Keyed.get? p.contacts key = some place)
    (hlt : place < m.strokes.length) :
    (m.withStrokes (m.strokes.set place s)).shown p = (m.shown p).putStroke key s := by
  have hwritten : (m.strokes.set place s).getD place (Stroke.empty p.dpi) = s := by
    simp [List.getD_eq_getElem?_getD, hlt]
  rw [shown, Gesture.putStroke, shown, Gesture.mk.injEq]
  refine ⟨rfl, rfl, ?_⟩
  have hput := Keyed.map_eq_put_of_get?
    (f := fun i => (m.strokes.set place s).getD i (Stroke.empty p.dpi))
    (g := fun i => m.strokes.getD i (Stroke.empty p.dpi)) hd hp
    fun other ho => getD_set_ne (Ne.symm ho)
  simp only [hwritten] at hput
  exact hput

/-- A contact that is new to a gesture, entered with a place, has the stroke that is there. -/
theorem shown_enter {s : Stroke α} (p : Gesture.Placed α) (key : Name)
    (hs : m.strokes[place]? = some s) :
    m.shown ⟨p.dpi, p.phase, Keyed.put p.contacts key place⟩ = (m.shown p).putStroke key s := by
  have hstroke : m.strokes.getD place (Stroke.empty p.dpi) = s := by
    rw [List.getD_eq_getElem?_getD, hs, Option.getD_some]
  rw [shown, Gesture.putStroke, shown, Gesture.mk.injEq]
  refine ⟨rfl, rfl, ?_⟩
  simpa only [hstroke] using Keyed.put_map_snd p.contacts key place
    (fun place => m.strokes.getD place (Stroke.empty p.dpi))

theorem places_enter {p : Gesture.Placed α} (h : Keyed.get? p.contacts key = none) (place : Nat) :
    Gesture.Placed.places ⟨p.dpi, p.phase, Keyed.put p.contacts key place⟩ =
      p.places ++ [place] := by
  have hput : Keyed.put p.contacts key place = p.contacts ++ [(key, place)] := by
    simpa [Keyed.put] using Keyed.put_append_of_not_mem (Keyed.get?_eq_none_iff.mp h) []
  exact (congrArg (List.map Prod.snd) hput).trans List.map_append

end Memory

end StrayTouch
