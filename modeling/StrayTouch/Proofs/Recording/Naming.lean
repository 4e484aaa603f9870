import StrayTouch.Proofs.Recording.Replay

/-!
Recordings in which some strokes have no name. Such a stroke is named by its place, and this name
may be that of another stroke: then the later one of the two puts its points down on a contact that
has been lifted, and the recording is refused.
-/
namespace StrayTouch

open Gesture

variable {α : Type}

/-- A stroke of a recording: the name of its contact, if it has one, and its points. -/
structure RecordedStroke (α : Type) where
  name? : Option Name
  points : List (Point α)

namespace RecordedStroke

def contact (s : RecordedStroke α) (place : Nat) : Name × List (Point α) :=
  (s.name?.getD (.int place), s.points)

/-- The contacts of strokes, the first of which is at some place. -/
def contacts (strokes : List (RecordedStroke α)) (place : Nat) : Contacts α :=
  (strokes.zipIdx place).map fun s => s.1.contact s.2

def names (strokes : List (RecordedStroke α)) : List Name :=
  strokes.filterMap name?

/-- One of some strokes bears the name that another one gets from its place. -/
def Clash (strokes : List (RecordedStroke α)) : Prop :=
  ∃ place : Nat, (∃ s, strokes[place]? = some s ∧ s.name? = none) ∧
    ∃ name ∈ names strokes, name.key = (Name.int place).key

variable {strokes : List (RecordedStroke α)} {s t : RecordedStroke α}

theorem eq_of_int_key {i j : Nat} (h : (Name.int i).key = (Name.int j).key) : i = j := by
  have hexact := Exact.finite.inj (Key.number_injective h)
  exact_mod_cast hexact

theorem marks_contacts_getElem? (strokes : List (RecordedStroke α)) (i : Nat) :
    (Keyed.marks (contacts strokes 0))[i]? = strokes[i]?.map fun s => (s.contact i).1.key := by
  simp [Keyed.marks, contacts, List.getElem?_zipIdx, Function.comp_def]

theorem names_ne_of_lt (hnames : ((names strokes).map Name.key).Nodup) {i j : Nat} (hij : i < j)
    (hi : strokes[i]? = some s) (hj : strokes[j]? = some t) {name other : Name}
    (hs : s.name? = some name) (ht : t.name? = some other) : name.key ≠ other.key := by
  rw [List.Nodup, List.pairwise_map, names, List.pairwise_filterMap,
    List.pairwise_iff_getElem] at hnames
  obtain ⟨hilt, rfl⟩ := List.getElem?_eq_some_iff.mp hi
  obtain ⟨hjlt, rfl⟩ := List.getElem?_eq_some_iff.mp hj
  exact hnames i j hilt hjlt hij name hs other ht

theorem not_distinct_of_clash (h : Clash strokes) : ¬ Keyed.Distinct (contacts strokes 0) := by
  obtain ⟨i, ⟨s, hi, hs⟩, name, hname, hkey⟩ := h
  obtain ⟨t, ht, hother⟩ := List.mem_filterMap.mp hname
  obtain ⟨j, hj⟩ := List.getElem?_of_mem ht
  intro hd
  have hmarks : (Keyed.marks (contacts strokes 0))[i]? =
      (Keyed.marks (contacts strokes 0))[j]? := by
    rw [marks_contacts_getElem?, marks_contacts_getElem?, hi, hj]
    simp [contact, hs, hother, hkey]
  have hlength : i < (Keyed.marks (contacts strokes 0)).length := by
    simpa [Keyed.marks, contacts] using (List.getElem?_eq_some_iff.mp hi).1
  obtain rfl := (List.getElem?_inj hlength hd).mp hmarks
  rw [hi] at hj
  obtain rfl := Option.some.inj hj
  rw [hs] at hother
  cases hother

/-- Two strokes whose contacts are the same clash, because neither both have names nor both have
none. -/
theorem clash_of_contact (hnames : ((names strokes).map Name.key).Nodup) {i j : Nat} (hij : i < j)
    (hi : strokes[i]? = some s) (hj : strokes[j]? = some t)
    (h : (s.contact i).1.key = (t.contact j).1.key) : Clash strokes := by
  unfold contact at h
  cases hs : s.name? with
  | none =>
    cases ht : t.name? with
    | none =>
      rw [hs, ht] at h
      exact absurd (eq_of_int_key h) hij.ne
    | some name =>
      rw [hs, ht] at h
      exact ⟨i, ⟨s, hi, hs⟩, name,
        List.mem_filterMap.mpr ⟨t, List.mem_of_getElem? hj, ht⟩, h.symm⟩
  | some name =>
    cases ht : t.name? with
    | none =>
      rw [hs, ht] at h
      exact ⟨j, ⟨t, hj, ht⟩, name,
        List.mem_filterMap.mpr ⟨s, List.mem_of_getElem? hi, hs⟩, h⟩
    | some other =>
      rw [hs, ht] at h
      exact absurd h (names_ne_of_lt hnames hij hi hj hs ht)

/-- Strokes whose names are different are different contacts, unless two of them clash. -/
theorem distinct_contacts_iff (hnames : ((names strokes).map Name.key).Nodup) :
    Keyed.Distinct (contacts strokes 0) ↔ ¬ Clash strokes := by
  refine ⟨fun hd hc => not_distinct_of_clash hc hd, fun hno => ?_⟩
  rw [Keyed.Distinct, List.nodup_iff_getElem?_ne_getElem?]
  intro i j hij hj heq
  have hjlt : j < strokes.length := by simpa [Keyed.marks, contacts] using hj
  have hs := List.getElem?_eq_getElem (hij.trans hjlt)
  have ht := List.getElem?_eq_getElem hjlt
  rw [marks_contacts_getElem?, marks_contacts_getElem?, hs, ht] at heq
  exact hno (clash_of_contact hnames hij hs ht (Option.some.inj heq))

end RecordedStroke

variable [Scalar α]

/-- A stroke as it is written: a mapping that may name its contact and lists its points. -/
structure Value.WritesStroke (entry : Value) (s : RecordedStroke α) : Prop where
  mapping : ∃ entries, entry.head = .map entries
  name : entry.field? "contact_id" = s.name?.map Name.value
  points : ∃ rows, ((entry.field? "points").getD (.list [])).head = .list rows ∧
    List.Forall₂ WritesPoint rows s.points

/-- The points that a contact can put down by itself: at least one, all of them finite, and in
order. -/
structure Point.Playable (ps : List (Point α)) : Prop where
  ne_nil : ps ≠ []
  finite : ∀ p ∈ ps, p.isFinite = true
  ordered : ps.Pairwise fun p q => p.time ≤ q.time

theorem Value.WritesStroke.contact {entry : Value} {s : RecordedStroke α}
    (h : entry.WritesStroke s) (place : Nat) : entry.WritesContact place (s.contact place) := by
  refine ⟨h.mapping, ?_, h.points⟩
  rw [h.name, RecordedStroke.contact]
  cases s.name? <;> rfl

theorem Value.writesContact_zipIdx {entries : List Value} {strokes : List (RecordedStroke α)}
    (h : List.Forall₂ WritesStroke entries strokes) (place : Nat) :
    List.Forall₂ (fun e c => e.1.WritesContact e.2 c) (entries.zipIdx place)
      (RecordedStroke.contacts strokes place) := by
  induction h generalizing place with
  | nil => exact .nil
  | cons hs _ ih => exact .cons (hs.contact place) (ih (place + 1))

theorem RecordedStroke.playable_contacts {strokes : List (RecordedStroke α)}
    (h : ∀ s ∈ strokes, Point.Playable s.points) (place : Nat) :
    ∀ c ∈ contacts strokes place, Point.Playable c.2 := by
  intro c hc
  obtain ⟨s, hs, rfl⟩ := List.mem_map.mp hc
  exact h s.1 (List.fst_mem_of_mem_zipIdx hs)

omit [Scalar α] in
theorem Contacts.pressed_eq_self {cs : Contacts α} (h : ∀ c ∈ cs, c.2 ≠ []) : cs.pressed = cs :=
  List.filter_eq_self.mpr fun c hc => by simpa using h c hc

omit [Scalar α] in
/-- Contacts that all bring points come fresh exactly if no two of them are the same. -/
theorem Contacts.fresh_iff_distinct {cs : Contacts α} (h : ∀ c ∈ cs, c.2 ≠ []) :
    cs.Fresh ↔ Keyed.Distinct cs := by
  induction cs using List.reverseRecOn with
  | nil => simp [Fresh, Keyed.Distinct, Keyed.marks]
  | append_singleton cs c ih =>
    obtain ⟨hcs, hc⟩ := List.forall_mem_append.mp h
    have hne : c.2 ≠ [] := hc c List.mem_cons_self
    rw [fresh_concat_iff, ih hcs, Keyed.Distinct, Keyed.Distinct, marks_concat,
      List.nodup_append_comm, List.singleton_append, List.nodup_cons, FreshAfter, and_comm]
    simp [hne]

namespace Engine

variable {e : Engine α} {g : Gesture α} {dpi : α} {log : List (Gesture.Entry α)}

theorem addPoint_of_lifted (h : g.Represents dpi log) {id : Name} {sample : Sample} {p : Point α}
    (hp : sample.toPoint = .ok p) (hl : Log.isLifted log id = true) :
    g.addPoint id.value sample = .error .strokeFrozen := by
  have hfrozen : ((g.stroke? id).getD (Stroke.empty g.dpi)).append p = .error .strokeFrozen := by
    rw [h.dpi_eq, h.stroke?_getD, Stroke.append, Log.stroke, hl]
    rfl
  rw [Gesture.addPoint, requireCapturing_of_capturing h.capturing, hp]
  simp only [ok_bind, Name.toName_value, hfrozen, error_bind]

/-- Points of a contact that has been lifted are refused, from the first one on. -/
theorem play_of_lifted (h : g.Represents dpi log) {entry : Value} {place : Nat}
    {c : Name × List (Point α)} (hw : entry.WritesContact place c) (hne : c.2 ≠ [])
    (hl : Log.isLifted log c.1 = true) :
    e.play g (Script.ofStroke place entry) = .error .strokeFrozen := by
  obtain ⟨id, ps⟩ := c
  obtain ⟨⟨members, hmap⟩, hid, rows, hrows, hpoints⟩ := hw
  cases hpoints with
  | nil => exact absurd rfl hne
  | @cons row p rows ps hrow _ =>
    have hfirst : e.play g (Script.ofPoint place id.value row) = .error .strokeFrozen := by
      obtain ⟨x, y, t, rest, hitems, hx, hy, ht, hsize⟩ := hrow
      have hsample : (⟨x, y, .int p.time, rest.head?.getD .null⟩ : Sample).toPoint = .ok p :=
        Sample.toPoint_eq_ok_iff.mpr ⟨hx, hy, rfl, Value.writesSize_getD.mpr hsize⟩
      have hscript : Script.ofPoint place id.value row =
          .single (Touch.point id.value ⟨x, y, .int p.time, rest.head?.getD .null⟩).call := by
        simp only [Script.ofPoint, hitems, ht]
        rfl
      rw [hscript, play_single, touch_point, addPoint_of_lifted h hsample hl]
    rw [Script.ofStroke, hmap]
    simp only [hid, hrows, List.map_cons, Script.sequence, play_followedBy, hfirst, error_bind]

/-- Strokes that are not all different contacts are refused where the first of them comes again. -/
theorem play_of_repeated {strokes : List Value} {place : Nat} {cs ds : Contacts α}
    (h : g.Represents dpi cs.log) (hf : cs.Fresh)
    (hds : List.Forall₂ (fun e c => e.1.WritesContact e.2 c) (strokes.zipIdx place) ds)
    (hplayable : ∀ d ∈ ds, Point.Playable d.2) (hcs : Keyed.Distinct cs)
    (hrepeated : ¬ Keyed.Distinct (cs ++ ds)) :
    e.play g (Script.ofStrokes place strokes) = .error .strokeFrozen := by
  induction strokes generalizing g place cs ds with
  | nil =>
    cases hds
    rw [List.append_nil] at hrepeated
    exact absurd hcs hrepeated
  | cons stroke strokes ih =>
    rw [List.zipIdx_cons] at hds
    cases hds with
    | @cons _ d _ ds hd hds =>
      obtain ⟨hfirst, hrest⟩ := List.forall_mem_cons.mp hplayable
      rw [Script.ofStrokes, play_followedBy]
      by_cases hmem : d.1.key ∈ Keyed.marks cs
      · rw [play_of_lifted h hd hfirst.ne_nil ((Contacts.isLifted_log_iff cs d.1).mpr hmem)]
        rfl
      · have hnew : Keyed.Distinct (cs ++ [d]) := by
          rw [Keyed.Distinct, Contacts.marks_concat, List.nodup_append_comm, List.singleton_append,
            List.nodup_cons]
          exact ⟨hmem, hcs⟩
        have hfresh : (cs ++ [d]).Fresh :=
          Contacts.fresh_concat_iff.mpr ⟨hf, .inl ⟨hfirst.ne_nil, hmem⟩⟩
        have haccepts : Log.AcceptsAll cs.log (Contacts.entriesOf d) :=
          (Contacts.acceptsAll_entriesOf fun id => (Contacts.isLifted_log_iff cs id).trans
            (Contacts.pointsOf_log_ne_nil_iff hf id).symm).mpr
              ⟨hfirst.finite, hfirst.ordered, .inl ⟨hfirst.ne_nil,
                Contacts.pointsOf_log_eq_nil hf hmem⟩⟩
        obtain ⟨after, hafter⟩ := h.exists_of_acceptsAll haccepts
        have hplay : e.play g (Script.ofStroke place stroke) = .ok after :=
          (Script.denotes_ofStroke place stroke e h after).mpr
            ⟨_, ⟨d, hd, rfl⟩, haccepts, hafter⟩
        rw [hplay, ok_bind]
        rw [← Contacts.log_concat] at hafter
        refine ih hafter hfresh hds hrest hnew ?_
        rwa [List.append_assoc, List.singleton_append]

section Replay

variable {panel : List (Member α)} {entries : List Value} {cs : Contacts α}

theorem replay_nil (hp : Member.panel e.config e.classifiers = .ok panel) :
    e.replay (Script.ofStrokes 0 []) = .error .emptyGesture := by
  have hevaluate : e.evaluate e.beginGesture = .error .emptyGesture := by
    rw [evaluate, judge, hp]
    rfl
  rw [replay, record_eq_play, Script.ofStrokes]
  exact congrArg (· >>= fun p => .ok p.1) hevaluate

theorem replay_of_repeated
    (h : List.Forall₂ (fun e c => e.1.WritesContact e.2 c) (entries.zipIdx 0) cs)
    (hplayable : ∀ c ∈ cs, Point.Playable c.2) (hrepeated : ¬ Keyed.Distinct cs) :
    e.replay (Script.ofStrokes 0 entries) = .error .strokeFrozen := by
  have hempty : e.beginGesture.Represents e.config.dpi (Contacts.log ([] : Contacts α)) :=
    represents_empty e.config.dpi
  have hdistinct : Keyed.Distinct ([] : Contacts α) := List.nodup_nil
  have hfresh : Contacts.Fresh ([] : Contacts α) :=
    (Contacts.fresh_iff_distinct (by simp)).mpr hdistinct
  have hplay : e.record (Script.ofStrokes 0 entries) = .error .strokeFrozen :=
    play_of_repeated hempty hfresh h hplayable hdistinct hrepeated
  rw [replay, hplay]
  rfl

/-- Strokes that are all different contacts are replayed to a verdict, which breaks down into
them. -/
theorem exists_replay_of_distinct (hp : Member.panel e.config e.classifiers = .ok panel)
    (h : List.Forall₂ (fun e c => e.1.WritesContact e.2 c) (entries.zipIdx 0) cs)
    (hplayable : ∀ c ∈ cs, Point.Playable c.2) (hdistinct : Keyed.Distinct cs)
    (hne : entries ≠ []) :
    ∃ v, e.replay (Script.ofStrokes 0 entries) = .ok v ∧
      v.strokeScores.map Prod.fst = cs.map Prod.fst := by
  have hnil : ∀ c ∈ cs, c.2 ≠ [] := fun c hc => (hplayable c hc).ne_nil
  have hlists : ListsContacts entries cs :=
    { entries := h
      finite := fun c hc => (hplayable c hc).finite
      ordered := fun c hc => (hplayable c hc).ordered
      fresh := (Contacts.fresh_iff_distinct hnil).mpr hdistinct }
  obtain ⟨v, hreplay⟩ := (exists_replay_iff hp).mpr ⟨hne, cs, hlists⟩
  obtain ⟨g, hg, hv⟩ := replay_eq_ok_iff.mp hreplay
  obtain ⟨played, hplayed, hr⟩ := exists_record_of_listsContacts (e := e) hlists
  obtain rfl : played = g := Except.ok.inj (hplayed.symm.trans hg)
  refine ⟨v, hreplay, ?_⟩
  rw [keys_strokeScores hr hv, contactIds, Keyed.keys, hr.contacts_of_fresh hlists.fresh,
    List.map_map, Contacts.pressed_eq_self hnil]
  rfl

end Replay

/-- Strokes without a name get a contact of their own, unless another stroke bears the name that one
of them gets from its place. In a recording whose strokes are well formed and whose names are
different, every stroke is judged by itself if there is no such clash; if there is one, the
recording is refused because a contact would be put down again that has been lifted. -/
theorem replay_unnamed_strokes {s : Settings α} {c : Config α} (hc : Config.build s = .ok c)
    {recording v : Value} {entries : List Value} (hv : recording.field? "strokes" = some v)
    (hs : v.head = .list entries) {strokes : List (RecordedStroke α)}
    (hw : List.Forall₂ Value.WritesStroke entries strokes)
    (hplayable : ∀ s ∈ strokes, Point.Playable s.points)
    (hnames : ((RecordedStroke.names strokes).map Name.key).Nodup) :
    let outcome := recording.script >>= (standard c).replay
    (strokes = [] → outcome = .error .emptyGesture) ∧
    (RecordedStroke.Clash strokes → outcome = .error .strokeFrozen) ∧
    (strokes ≠ [] → ¬ RecordedStroke.Clash strokes → ∃ verdict, outcome = .ok verdict ∧
      verdict.strokeScores.length = strokes.length ∧
      verdict.strokeScores.map Prod.fst =
        (RecordedStroke.contacts strokes 0).map Prod.fst) := by
  intro outcome
  obtain ⟨panel, hp, _⟩ := Variant.exists_panel hc
  have hscript : recording.script = .ok (Script.ofStrokes 0 entries) := by
    rw [Value.script, hv]
    simp [Value.items, hs]
  have houtcome : outcome = (standard c).replay (Script.ofStrokes 0 entries) := by
    simp only [outcome, hscript, ok_bind]
  have hcontacts := Value.writesContact_zipIdx hw 0
  have hall := RecordedStroke.playable_contacts hplayable 0
  rw [houtcome]
  refine ⟨?_, fun hclash => ?_, fun hne hclash => ?_⟩
  · rintro rfl
    obtain rfl := List.forall₂_nil_right_iff.mp hw
    exact replay_nil (e := standard c) hp
  · exact replay_of_repeated hcontacts hall (RecordedStroke.not_distinct_of_clash hclash)
  · have hentries : entries ≠ [] := by
      rintro rfl
      exact hne (List.forall₂_nil_left_iff.mp hw)
    obtain ⟨verdict, hverdict, hkeys⟩ := exists_replay_of_distinct (e := standard c) hp hcontacts
      hall ((RecordedStroke.distinct_contacts_iff hnames).mpr hclash) hentries
    refine ⟨verdict, hverdict, ?_, hkeys⟩
    have hlength := congrArg List.length hkeys
    simpa [RecordedStroke.contacts] using hlength

/-- A swipe of a hundred pixels as a recording has it, with or without a name. -/
def recordedSwipe (name? : Option Name) : Value :=
  .map ((name?.map fun name => (.text "contact_id", name.value)).toList ++
    [(.text "points", .list [.list [.int 0, .int 0, .int 0],
      .list [.int 100, .int 0, .int 10000000]])])

def swipePoints : List (Point Float) :=
  [⟨0.0, 0.0, 0, none⟩, ⟨100.0, 0.0, 10000000, none⟩]

theorem playable_swipePoints : Point.Playable swipePoints :=
  ⟨by simp [swipePoints], by decide +kernel, by decide +kernel⟩

theorem writes_recordedSwipe (name? : Option Name) :
    (recordedSwipe name?).WritesStroke ⟨name?, swipePoints⟩ := by
  have hrows : List.Forall₂ Value.WritesPoint
      [.list [.int 0, .int 0, .int 0], .list [.int 100, .int 0, .int 10000000]] swipePoints :=
    .cons ⟨_, _, _, _, rfl, eq_ok_of_toOption (by decide +kernel),
        eq_ok_of_toOption (by decide +kernel), rfl, .absent⟩
      (.cons ⟨_, _, _, _, rfl, eq_ok_of_toOption (by decide +kernel),
        eq_ok_of_toOption (by decide +kernel), rfl, .absent⟩ .nil)
  cases name? with
  | none => exact ⟨⟨_, rfl⟩, rfl, _, rfl, hrows⟩
  | some name => exact ⟨⟨_, rfl⟩, rfl, _, rfl, hrows⟩

/-- A recording of swipes with these names. -/
def recordedSwipes (names? : List (Option Name)) : Value :=
  .map [(.text "strokes", .list (names?.map recordedSwipe))]

def swipes (names? : List (Option Name)) : List (RecordedStroke Float) :=
  names?.map fun name? => ⟨name?, swipePoints⟩

theorem writes_recordedSwipes (names? : List (Option Name)) :
    List.Forall₂ Value.WritesStroke (names?.map recordedSwipe) (swipes names?) := by
  rw [swipes, List.forall₂_map_left_iff, List.forall₂_map_right_iff, List.forall₂_same]
  exact fun name? _ => writes_recordedSwipe name?

theorem playable_swipes (names? : List (Option Name)) :
    ∀ s ∈ swipes names?, Point.Playable s.points :=
  List.forall_mem_map.mpr fun _ _ => playable_swipePoints

/-- Two strokes without a name on both sides of one that has one. -/
theorem replay_around_palm :
    ∃ (c : Config Float) (v : Verdict Float), Config.build Settings.unset = .ok c ∧
      (recordedSwipes [none, some (.text "palm"), none]).script >>= (standard c).replay = .ok v ∧
      v.strokeScores.map Prod.fst = [.int 0, .text "palm", .int 2] := by
  obtain ⟨c, hc⟩ := Config.exists_build_unset
  let names? : List (Option Name) := [none, some (.text "palm"), none]
  have hfield : (recordedSwipes names?).field? "strokes" =
      some (.list (names?.map recordedSwipe)) := rfl
  have hnames : ((RecordedStroke.names (swipes names?)).map Name.key).Nodup := by decide
  have hdistinct : (Keyed.marks (RecordedStroke.contacts (swipes names?) 0)).Nodup := by
    decide +kernel
  obtain ⟨_, _, hreplay⟩ := replay_unnamed_strokes hc hfield rfl (writes_recordedSwipes names?)
    (playable_swipes names?) hnames
  obtain ⟨v, hv, _, hkeys⟩ := hreplay (by simp [swipes, names?])
    ((RecordedStroke.distinct_contacts_iff hnames).mp hdistinct)
  exact ⟨c, v, hc, hv, hkeys⟩

/-- A stroke with the name one, and at place one a stroke without a name. -/
theorem replay_clashing_swipes :
    let names? : List (Option Name) := [some (.int 1), none]
    List.Forall₂ Value.WritesStroke (names?.map recordedSwipe) (swipes names?) ∧
      (∀ s ∈ swipes names?, Point.Playable s.points) ∧
      ((RecordedStroke.names (swipes names?)).map Name.key).Nodup ∧
      ∃ (c : Config Float) (f : Fault), Config.build Settings.unset = .ok c ∧
        (recordedSwipes names?).script >>= (standard c).replay = .error f ∧
        f.kind = .precondition := by
  intro names?
  obtain ⟨c, hc⟩ := Config.exists_build_unset
  have hkind : kind? (Config.build (Settings.unset (α := Float)) >>= fun c =>
      (recordedSwipes names?).script >>= (standard c).replay) = some .precondition := by
    decide +kernel
  rw [hc, ok_bind] at hkind
  obtain ⟨f, hf, hprecondition⟩ := exists_of_kind? hkind
  exact ⟨writes_recordedSwipes names?, playable_swipes names?, by decide, c, f, hc, hf,
    hprecondition⟩

end Engine

end StrayTouch
