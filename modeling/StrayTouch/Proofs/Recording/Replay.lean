import StrayTouch.Proofs.Engine.Defaults
import StrayTouch.Proofs.Recording.Grammar

/-!
What replaying a recording comes to: a verdict on exactly what the recording lists, if it follows
the grammar, and a fault otherwise.
-/
namespace StrayTouch

open Gesture

variable {α : Type} [Scalar α]

omit [Scalar α] in
theorem Contacts.pressed_eq_nil_iff {cs : Contacts α} (h : cs.Fresh) :
    cs.pressed = [] ↔ cs = [] := by
  cases cs with
  | nil => simp [pressed]
  | cons c rest =>
    rcases h [] c rest rfl with ⟨hne, _⟩ | ⟨_, hmem⟩
    · simp [pressed, hne]
    · cases hmem

theorem Gesture.Represents.contacts_of_fresh {g : Gesture α} {dpi : α} {cs : Contacts α}
    (hr : g.Represents dpi cs.log) (h : cs.Fresh) :
    g.contacts = cs.pressed.map fun c => (c.1, ⟨dpi, c.2, true⟩) :=
  hr.contacts_eq.trans (Contacts.strokes_log h dpi)

theorem ListsContacts.acceptsAll {strokes : List Value} {cs : Contacts α}
    (h : ListsContacts strokes cs) : Log.AcceptsAll [] cs.log :=
  (Contacts.acceptsAll_log_iff cs).mpr ⟨h.finite, h.ordered, h.fresh⟩

/-- A gesture that has been played from a recording is empty exactly if the recording lists
nothing. -/
theorem ListsContacts.strokeCount_eq_zero_iff {strokes : List Value} {cs : Contacts α}
    {g : Gesture α} {dpi : α} (h : ListsContacts strokes cs) (hr : g.Represents dpi cs.log) :
    g.strokeCount = 0 ↔ strokes = [] := by
  have hlength : strokes.length = cs.length := by
    rw [← h.entries.length_eq, List.length_zipIdx]
  calc g.strokeCount = 0
      ↔ cs.pressed = [] := by
        rw [Gesture.strokeCount, hr.contacts_of_fresh h.fresh, List.length_map,
          List.length_eq_zero_iff]
    _ ↔ cs = [] := Contacts.pressed_eq_nil_iff h.fresh
    _ ↔ strokes = [] := by rw [← List.length_eq_zero_iff, ← hlength, List.length_eq_zero_iff]

namespace Engine

variable {e : Engine α} {strokes : List Value} {g : Gesture α} {panel : List (Member α)}

theorem record_ofStrokes_eq_ok_iff :
    e.record (Script.ofStrokes 0 strokes) = .ok g ↔
      ∃ cs : Contacts α, ListsContacts strokes cs ∧ g.Represents e.config.dpi cs.log := by
  rw [record_eq_play, beginGesture,
    Script.denotes_ofStrokes 0 strokes e (represents_empty e.config.dpi) g]
  constructor
  · rintro ⟨_, ⟨cs, hcs, rfl⟩, haccepts, hr⟩
    obtain ⟨hfinite, hordered, hfresh⟩ := (Contacts.acceptsAll_log_iff cs).mp haccepts
    exact ⟨cs, ⟨hcs, hfinite, hordered, hfresh⟩, hr⟩
  · rintro ⟨cs, hcs, hr⟩
    exact ⟨cs.log, ⟨cs, hcs.entries, rfl⟩, hcs.acceptsAll, hr⟩

theorem exists_record_of_listsContacts {cs : Contacts α} (h : ListsContacts strokes cs) :
    ∃ g, e.record (Script.ofStrokes 0 strokes) = .ok g ∧ g.Represents e.config.dpi cs.log := by
  obtain ⟨g, hr⟩ := (represents_empty e.config.dpi).exists_of_acceptsAll h.acceptsAll
  rw [List.nil_append] at hr
  exact ⟨g, record_ofStrokes_eq_ok_iff.mpr ⟨cs, h, hr⟩, hr⟩

theorem replay_eq_ok_iff {script : Script} {v : Verdict α} :
    e.replay script = .ok v ↔
      ∃ g, e.record script = .ok g ∧ (e.step g .evaluate).1 = .verdict v := by
  unfold replay
  cases e.record script with
  | error f => simp
  | ok g =>
    rw [ok_bind]
    simp only [Except.ok.injEq, exists_eq_left', step_evaluate]
    cases e.evaluate g <;> simp

/-- An open gesture is decided exactly if it has a stroke, as soon as the panel can be seated. -/
theorem exists_verdict_iff (hp : Member.panel e.config e.classifiers = .ok panel)
    (hc : g.phase = .capturing) :
    (∃ v, (e.step g .evaluate).1 = .verdict v) ↔ g.strokeCount ≠ 0 := by
  constructor
  · rintro ⟨v, hv⟩
    rw [step_evaluate] at hv
    cases h : e.evaluate g with
    | error f =>
      rw [h] at hv
      cases hv
    | ok p =>
      obtain ⟨_, _, _, hs, _⟩ := evaluate_eq_ok_iff.mp h
      exact hs
  · intro hs
    exact ⟨_, congrArg Prod.fst (step_evaluate_of_panel hp hc hs)⟩

theorem exists_replay_iff (hp : Member.panel e.config e.classifiers = .ok panel) :
    (∃ v, e.replay (Script.ofStrokes 0 strokes) = .ok v) ↔
      strokes ≠ [] ∧ ∃ cs : Contacts α, ListsContacts strokes cs := by
  simp only [replay_eq_ok_iff]
  constructor
  · rintro ⟨v, g, hg, hv⟩
    obtain ⟨cs, hcs, hr⟩ := record_ofStrokes_eq_ok_iff.mp hg
    have hs := (exists_verdict_iff hp hr.capturing).mp ⟨v, hv⟩
    exact ⟨mt (hcs.strokeCount_eq_zero_iff hr).mpr hs, cs, hcs⟩
  · rintro ⟨hne, cs, hcs⟩
    obtain ⟨g, hg, hr⟩ := exists_record_of_listsContacts (e := e) hcs
    have hs := mt (hcs.strokeCount_eq_zero_iff hr).mp hne
    obtain ⟨v, hv⟩ := (exists_verdict_iff hp hr.capturing).mpr hs
    exact ⟨v, g, hg, hv⟩

/-- A recording is replayed to a verdict exactly if it lists a stroke and follows the grammar, and
every other one is refused. Nothing of it is lost: the gesture that is evaluated holds the contacts
that bring points, in their order and each with all its points, and the verdict breaks down into
them. -/
theorem replay_follows_grammar {s : Settings α} {c : Config α} (hc : Config.build s = .ok c)
    {recording v : Value} {strokes : List Value} (hv : recording.field? "strokes" = some v)
    (hs : v.head = .list strokes) :
    let outcome := recording.script >>= (standard c).replay
    ((∃ verdict, outcome = .ok verdict) ↔
      strokes ≠ [] ∧ ∃ cs : Contacts α, ListsContacts strokes cs) ∧
    ((∃ f, outcome = .error f) ↔
      strokes = [] ∨ ∀ cs : Contacts α, ¬ ListsContacts strokes cs) ∧
    ∀ cs : Contacts α, ListsContacts strokes cs → ∀ verdict, outcome = .ok verdict →
      ∃ g, recording.script >>= (standard c).record = .ok g ∧
        ((standard c).step g .evaluate).1 = .verdict verdict ∧
        g.contacts = (cs.pressed.map fun x => (x.1, ⟨c.dpi, x.2, true⟩)) ∧
        verdict.strokeScores.map Prod.fst = cs.pressed.map Prod.fst := by
  intro outcome
  obtain ⟨panel, hp, _⟩ := Variant.exists_panel hc
  have hscript : recording.script = .ok (Script.ofStrokes 0 strokes) := by
    rw [Value.script, hv]
    simp [Value.items, hs]
  have houtcome : outcome = (standard c).replay (Script.ofStrokes 0 strokes) := by
    simp only [outcome, hscript, ok_bind]
  have haccepts : (∃ verdict, outcome = .ok verdict) ↔
      strokes ≠ [] ∧ ∃ cs : Contacts α, ListsContacts strokes cs := by
    rw [houtcome]
    exact exists_replay_iff (e := standard c) hp
  refine ⟨haccepts, ?_, ?_⟩
  · have hrefuses : (∃ f, outcome = .error f) ↔ ¬ ∃ verdict, outcome = .ok verdict := by
      cases outcome <;> simp
    rw [hrefuses, haccepts, not_and_or, not_not, not_exists]
  · intro cs hcs verdict hverdict
    rw [houtcome, replay_eq_ok_iff] at hverdict
    obtain ⟨g, hg, hv⟩ := hverdict
    obtain ⟨g', hg', hr⟩ := exists_record_of_listsContacts (e := standard c) hcs
    obtain rfl : g' = g := Except.ok.inj (hg'.symm.trans hg)
    have hcontacts := hr.contacts_of_fresh hcs.fresh
    refine ⟨g', by rw [hscript, ok_bind, hg'], hv, hcontacts, ?_⟩
    rw [keys_strokeScores hr hv, contactIds, Keyed.keys, hcontacts, List.map_map]
    rfl

private def px (x : Float) : Value := .atom (.float x)

/-- Three strokes. The first has no name and is contact zero, and of its two times one is a real
number; the second names that contact by a real number and brings nothing more; the third is
another contact, named by a tuple, with a size. -/
def swipeAndPalm : List Value :=
  [.map [(.text "points", .list [.list [px 1.5, px 2.5, .int 0],
      .tuple [px 3.5, .int 2, px 8.75, .null]])],
    .map [(.text "contact_id", px 0.0)],
    .map [(.text "contact_id", .tuple [.int 1, .tuple [.text "palm"]]),
      (.text "points", .list [.list [px 40.0, px 50.0, .atom (.bool true), px 2.5, .null]])]]

def swipeAndPalmContacts : Contacts Float :=
  [(.int 0, [⟨1.5, 2.5, 0, none⟩, ⟨3.5, 2.0, 8, none⟩]), (.atom (.float 0.0), []),
    (.tuple [.int 1, .tuple [.text "palm"]], [⟨40.0, 50.0, 1, some 2.5⟩])]

theorem listsContacts_swipeAndPalm : ListsContacts swipeAndPalm swipeAndPalmContacts where
  entries := by
    refine .cons ⟨⟨_, rfl⟩, rfl, _, rfl, .cons ?_ (.cons ?_ .nil)⟩
      (.cons ⟨⟨_, rfl⟩, rfl, _, rfl, .nil⟩ (.cons ⟨⟨_, rfl⟩, rfl, _, rfl, .cons ?_ .nil⟩ .nil))
    · exact ⟨_, _, _, _, rfl, rfl, rfl, rfl, .absent⟩
    · exact ⟨_, _, _, _, rfl, rfl, rfl, rfl, .null⟩
    · exact ⟨_, _, _, _, rfl, rfl, rfl, rfl, .number rfl⟩
  finite := by decide +kernel
  ordered := by decide +kernel
  fresh := by decide +kernel

/-- The gesture that is evaluated has the two contacts that bring points, with the positions, times
and sizes that are written. -/
theorem replay_swipeAndPalm :
    ∃ (c : Config Float) (v : Verdict Float) (g : Gesture Float),
      Config.build Settings.unset = .ok c ∧
      (Value.map [(.text "strokes", .list swipeAndPalm)]).script >>= (standard c).replay = .ok v ∧
      (Value.map [(.text "strokes", .list swipeAndPalm)]).script >>= (standard c).record = .ok g ∧
      ((standard c).step g .evaluate).1 = .verdict v ∧
      g.contacts = [(.int 0, ⟨c.dpi, [⟨1.5, 2.5, 0, none⟩, ⟨3.5, 2.0, 8, none⟩], true⟩),
        (.tuple [.int 1, .tuple [.text "palm"]], ⟨c.dpi, [⟨40.0, 50.0, 1, some 2.5⟩], true⟩)] ∧
      v.strokeScores.map (fun x => x.1) = [.int 0, .tuple [.int 1, .tuple [.text "palm"]]] := by
  obtain ⟨c, hc⟩ := Config.exists_build_unset
  have hfield : (Value.map [(.text "strokes", .list swipeAndPalm)]).field? "strokes" =
      some (.list swipeAndPalm) := rfl
  obtain ⟨haccepts, _, hlists⟩ := replay_follows_grammar hc hfield rfl
  obtain ⟨v, hv⟩ := haccepts.mpr ⟨by decide +kernel, _, listsContacts_swipeAndPalm⟩
  obtain ⟨g, hg, hverdict, hcontacts, hkeys⟩ := hlists _ listsContacts_swipeAndPalm v hv
  have hpressed : swipeAndPalmContacts.pressed =
      [(.int 0, [⟨1.5, 2.5, 0, none⟩, ⟨3.5, 2.0, 8, none⟩]),
        (.tuple [.int 1, .tuple [.text "palm"]], [⟨40.0, 50.0, 1, some 2.5⟩])] := rfl
  rw [hpressed] at hcontacts hkeys
  exact ⟨c, v, g, hc, hv, hg, hverdict, hcontacts, hkeys⟩

end Engine

end StrayTouch
