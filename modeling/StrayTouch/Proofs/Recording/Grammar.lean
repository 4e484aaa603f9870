import StrayTouch.Proofs.Engine.Interleaving
import StrayTouch.Proofs.Recording.Log
import StrayTouch.Recording.Replay

/-!
The grammar of recordings, and that scripts follow it. `ListsContacts` says what a recording lists
without a word on how it is played; `Script.Denotes` says which logs a script can put down.
-/
namespace StrayTouch

open Gesture

variable {α : Type} [Scalar α]

namespace Value

/-- A point as it is written: a list or a tuple of two real numbers, a whole one, and perhaps a
size. What follows the size does not matter. -/
def WritesPoint (row : Value) (p : Point α) : Prop :=
  ∃ x y t rest, row.sequence? = some (x :: y :: t :: rest) ∧ x.toReal = .ok p.x ∧
    y.toReal = .ok p.y ∧ t.toWhole = .ok p.time ∧ WritesSize rest.head? p.size

/-- A contact as it is written: a mapping that may name it, by a scalar or a tuple of names, and may
list its points. One without a name is named by its place. -/
structure WritesContact (entry : Value) (place : Nat) (c : Name × List (Point α)) : Prop where
  mapping : ∃ entries, entry.head = .map entries
  id : (entry.field? "contact_id").getD (.int place) = c.1.value
  points : ∃ rows, ((entry.field? "points").getD (.list [])).head = .list rows ∧
    List.Forall₂ WritesPoint rows c.2

end Value

/-- What the strokes of a recording say, if they are well formed: contacts with finite points in
order, each of which comes fresh. -/
structure ListsContacts (strokes : List Value) (cs : Contacts α) : Prop where
  entries : List.Forall₂ (fun e c => e.1.WritesContact e.2 c) strokes.zipIdx cs
  finite : ∀ c ∈ cs, ∀ p ∈ c.2, p.isFinite = true
  ordered : ∀ c ∈ cs, c.2.Pairwise fun p q => p.time ≤ q.time
  fresh : cs.Fresh

namespace Gesture.Represents

variable {g other : Gesture α} {dpi : α} {log : List (Entry α)}

/-- The gesture that stands for a log is unique. -/
theorem eq (h : g.Represents dpi log) (ho : other.Represents dpi log) : g = other := by
  obtain ⟨gdpi, phase, contacts⟩ := g
  obtain ⟨odpi, ophase, ocontacts⟩ := other
  obtain rfl : gdpi = dpi := h.dpi_eq
  obtain rfl : odpi = gdpi := ho.dpi_eq
  obtain rfl : phase = .capturing := h.capturing
  obtain rfl : ophase = .capturing := ho.capturing
  exact congrArg _ (h.contacts_eq.trans ho.contacts_eq.symm)

theorem exists_of_accepts (h : g.Represents dpi log) {entry : Entry α}
    (ha : Log.Accepts log entry) : ∃ after : Gesture α, after.Represents dpi (log ++ [entry]) := by
  cases entry with
  | point id p =>
    obtain ⟨hl, hf, ht⟩ := ha
    have hs : (Log.stroke dpi log id).append p = .ok _ :=
      Stroke.append_eq_ok_iff.mpr ⟨hl, hf, ht, rfl⟩
    rw [← h.stroke?_getD, ← h.dpi_eq] at hs
    exact ⟨_, h.point hs⟩
  | up id =>
    have hs : g.stroke? id = some (Log.stroke dpi log id) := by
      rw [h.stroke?_eq, if_pos ((Log.any_contacts_iff log id).mpr ha)]
    exact ⟨_, h.up hs⟩

theorem exists_of_acceptsAll (h : g.Represents dpi log) {entries : List (Entry α)}
    (ha : Log.AcceptsAll log entries) :
    ∃ after : Gesture α, after.Represents dpi (log ++ entries) := by
  induction entries generalizing g log with
  | nil => exact ⟨g, by rwa [List.append_nil]⟩
  | cons entry entries ih =>
    obtain ⟨next, hnext⟩ := h.exists_of_accepts ha.1
    obtain ⟨after, hafter⟩ := ih hnext ha.2
    exact ⟨after, by rwa [List.append_cons]⟩

end Gesture.Represents

namespace Engine

/-- A script played on a gesture. -/
def play (e : Engine α) (g : Gesture α) (script : Script) : Except Fault (Gesture α) := do
  let after ← e.performAll g script.calls
  match script.fault? with
  | some f => .error f
  | none => .ok after

theorem record_eq_play (e : Engine α) (script : Script) :
    e.record script = e.play e.beginGesture script := rfl

theorem performAll_append (e : Engine α) (g : Gesture α) (calls others : List Call) :
    e.performAll g (calls ++ others) = e.performAll g calls >>= (e.performAll · others) := by
  induction calls generalizing g with
  | nil => rfl
  | cons c calls ih =>
    rw [List.cons_append, performAll, performAll]
    split
    · rfl
    · exact ih _

theorem play_followedBy (e : Engine α) (g : Gesture α) (a b : Script) :
    e.play g (a.followedBy b) = e.play g a >>= (e.play · b) := by
  unfold play Script.followedBy
  cases ha : a.fault? with
  | some f => cases e.performAll g a.calls <;> simp
  | none =>
    rw [performAll_append]
    cases e.performAll g a.calls <;> simp

theorem play_single (e : Engine α) (g : Gesture α) (t : Touch) :
    e.play g (.single t.call) =
      match g.touch t with
      | (none, after) => .ok after
      | (some f, _) => .error f := by
  unfold play Script.single
  simp only [performAll, step_call]
  obtain ⟨fault?, after⟩ := g.touch t
  cases fault? <;> rfl

end Engine

namespace Script

/-- The logs that a script can put down. Played on a gesture that stands for a log, it comes out
exactly where the gesture can take one of them, and then the gesture stands for the log with it. -/
def Denotes (script : Script) (P : List (Gesture.Entry α) → Prop) : Prop :=
  ∀ (e : Engine α) {g : Gesture α} {dpi : α} {log : List (Gesture.Entry α)}, g.Represents dpi log →
    ∀ after, e.play g script = .ok after ↔
      ∃ entries, P entries ∧ Log.AcceptsAll log entries ∧ after.Represents dpi (log ++ entries)

variable {P Q : List (Gesture.Entry α) → Prop}

theorem Denotes.imp {script : Script} (h : script.Denotes P) (hPQ : ∀ es, P es ↔ Q es) :
    script.Denotes Q := by
  obtain rfl : P = Q := funext fun es => propext (hPQ es)
  exact h

theorem denotes_stop {f : Fault} (h : ∀ entries, ¬ P entries) : (stop f).Denotes P := by
  intro e g dpi log _ after
  simp [Engine.play, stop, Engine.performAll, h]

theorem denotes_empty : empty.Denotes fun entries : List (Gesture.Entry α) => entries = [] := by
  intro e g dpi log h after
  have hplay : e.play g empty = .ok g := rfl
  simp only [hplay, Except.ok.injEq, exists_eq_left, List.append_nil, Log.AcceptsAll, true_and]
  exact ⟨fun he => he ▸ h, h.eq⟩

theorem denotes_single (t : Touch) :
    (single t.call).Denotes fun entries : List (Gesture.Entry α) =>
      ∃ entry, t.Records entry ∧ entries = [entry] := by
  intro e g dpi log h after
  simp only [← Touch.entry?_eq_some_iff]
  rw [Engine.play_single]
  have haccepts : (∃ entries, (∃ entry, t.entry? = some entry ∧ entries = [entry]) ∧
      Log.AcceptsAll log entries ∧ after.Represents dpi (log ++ entries)) ↔
      ∃ entry, t.entry? = some entry ∧ Log.Accepts log entry ∧
        after.Represents dpi (log ++ [entry]) := by
    constructor
    · rintro ⟨_, ⟨entry, he, rfl⟩, ⟨ha, _⟩, hr⟩
      exact ⟨entry, he, ha, hr⟩
    · rintro ⟨entry, he, ha, hr⟩
      exact ⟨[entry], ⟨entry, he, rfl⟩, ⟨ha, trivial⟩, hr⟩
  rw [haccepts]
  cases ht : (g.touch t).1 with
  | some f =>
    rw [Gesture.touch_of_fault ht]
    refine iff_of_false (fun he => by cases he) ?_
    rintro ⟨entry, he, ha, _⟩
    rw [(h.touch_eq_none_iff t).mpr ⟨entry, he, ha⟩] at ht
    cases ht
  | none =>
    obtain ⟨entry, he, hr⟩ := h.touch ht
    obtain ⟨other, ho, ha⟩ := (h.touch_eq_none_iff t).mp ht
    obtain rfl : other = entry := Option.some.inj (ho.symm.trans he)
    have hp : g.touch t = (none, (g.touch t).2) := Prod.ext ht rfl
    rw [hp]
    simp only [Except.ok.injEq]
    constructor
    · rintro rfl
      exact ⟨other, he, ha, hr⟩
    · rintro ⟨another, hs, _, hafter⟩
      obtain rfl : another = other := Option.some.inj (hs.symm.trans he)
      exact hr.eq hafter

theorem Denotes.followedBy {a b : Script} (ha : a.Denotes P) (hb : b.Denotes Q) :
    (a.followedBy b).Denotes fun entries => ∃ xs ys, P xs ∧ Q ys ∧ entries = xs ++ ys := by
  intro e g dpi log h after
  rw [Engine.play_followedBy]
  constructor
  · intro hplay
    obtain ⟨mid, hmid, hplay⟩ := bind_eq_ok_iff.mp hplay
    obtain ⟨xs, hxs, hax, hrx⟩ := (ha e h mid).mp hmid
    obtain ⟨ys, hys, hay, hry⟩ := (hb e hrx after).mp hplay
    rw [List.append_assoc] at hry
    exact ⟨xs ++ ys, ⟨xs, ys, hxs, hys, rfl⟩, Log.acceptsAll_append.mpr ⟨hax, hay⟩, hry⟩
  · rintro ⟨_, ⟨xs, ys, hxs, hys, rfl⟩, haccepts, hr⟩
    obtain ⟨hax, hay⟩ := Log.acceptsAll_append.mp haccepts
    obtain ⟨mid, hrx⟩ := h.exists_of_acceptsAll hax
    rw [(ha e h mid).mpr ⟨xs, hxs, hax, hrx⟩, ok_bind, hb e hrx after]
    rw [← List.append_assoc] at hr
    exact ⟨ys, hys, hay, hr⟩

/-- A sequence of scripts, each of which puts down what one of some readings of its source says. -/
theorem denotes_sequence {β γ : Type} {script : β → Script} {R : β → γ → Prop}
    {entries : γ → List (Gesture.Entry α)} {xs : List β}
    (h : ∀ x ∈ xs, (script x).Denotes fun es => ∃ y, R x y ∧ es = entries y) :
    (sequence (xs.map script)).Denotes fun es =>
      ∃ ys, List.Forall₂ R xs ys ∧ es = ys.flatMap entries := by
  induction xs with
  | nil =>
    refine denotes_empty.imp fun es => ?_
    simp
  | cons x xs ih =>
    obtain ⟨hx, hxs⟩ := List.forall_mem_cons.mp h
    refine (hx.followedBy (ih hxs)).imp fun es => ?_
    simp only [List.forall₂_cons_left_iff]
    constructor
    · rintro ⟨_, _, ⟨y, hy, rfl⟩, ⟨ys, hys, rfl⟩, rfl⟩
      exact ⟨y :: ys, ⟨y, ys, hy, hys, rfl⟩, rfl⟩
    · rintro ⟨_, ⟨y, ys, hy, hys, rfl⟩, rfl⟩
      exact ⟨_, _, ⟨y, hy, rfl⟩, ⟨ys, hys, rfl⟩, rfl⟩

theorem denotes_ofPoint (index : Nat) (id : Name) (row : Value) :
    (ofPoint index id.value row).Denotes fun entries : List (Gesture.Entry α) =>
      ∃ p, row.WritesPoint p ∧ entries = [.point id p] := by
  unfold ofPoint
  split
  next x y t rest hitems =>
    have hwrites (p : Point α) : row.WritesPoint p ↔ x.toReal = .ok p.x ∧ y.toReal = .ok p.y ∧
        t.toWhole = .ok p.time ∧ Value.WritesSize rest.head? p.size := by
      constructor
      · rintro ⟨x', y', t', rest', hrow, h⟩
        rw [hitems] at hrow
        cases hrow
        exact h
      · exact fun h => ⟨x, y, t, rest, hitems, h⟩
    cases ht : t.toWhole with
    | error f =>
      refine denotes_stop ?_
      rintro _ ⟨p, hp, _⟩
      have htime := ((hwrites p).mp hp).2.2.1
      rw [ht] at htime
      cases htime
    | ok time =>
      let sample : Sample := ⟨x, y, .int time, rest.head?.getD .null⟩
      have hsays (p : Point α) : sample.Says p ↔ row.WritesPoint p := by
        rw [hwrites]
        constructor
        · rintro ⟨hx, hy, htime, hs⟩
          exact ⟨hx, hy, ht.trans htime, Value.writesSize_getD.mp hs⟩
        · rintro ⟨hx, hy, htime, hs⟩
          exact ⟨hx, hy, ht.symm.trans htime, Value.writesSize_getD.mpr hs⟩
      refine (denotes_single (.point id.value sample)).imp fun es => ?_
      simp only [Touch.records_point_iff, hsays]
      constructor
      · rintro ⟨_, ⟨p, hp, rfl⟩, rfl⟩
        exact ⟨p, hp, rfl⟩
      · rintro ⟨p, hp, rfl⟩
        exact ⟨_, ⟨p, hp, rfl⟩, rfl⟩
  next hitems =>
    refine denotes_stop ?_
    rintro _ ⟨p, ⟨x, y, t, rest, hrow, _⟩, _⟩
    exact hitems x y t rest hrow

/-- What is no key cannot be lifted, whatever came before. -/
theorem denotes_followedBy_up {a : Script} {v : Value} (hv : ∀ id : Name, v ≠ id.value)
    (h : ∀ entries, ¬ P entries) : (a.followedBy (single (.up v))).Denotes P := by
  intro e g dpi log _ after
  rw [Engine.play_followedBy]
  refine iff_of_false (fun hplay => ?_) fun ⟨entries, hP, _⟩ => h entries hP
  obtain ⟨mid, _, hplay⟩ := bind_eq_ok_iff.mp hplay
  cases ht : (mid.touch (.up v)).1 with
  | some f =>
    have hup := Engine.play_single e mid (.up v)
    rw [Gesture.touch_of_fault ht] at hup
    cases hup.symm.trans hplay
  | none =>
    obtain ⟨_, ha⟩ := Gesture.touch_up_eq_none_iff.mp ht
    obtain ⟨_, key, _, hk, _⟩ := Gesture.endStroke_eq_ok_iff.mp ha
    exact hv key (Value.toName_eq_ok_iff.mp hk)

theorem denotes_ofRows (place : Nat) (id : Name) (rows : List Value) :
    ((sequence (rows.map (ofPoint place id.value))).followedBy (single (.up id.value))).Denotes
      fun entries : List (Gesture.Entry α) =>
        ∃ ps, List.Forall₂ Value.WritesPoint rows ps ∧ entries = Contacts.entriesOf (id, ps) := by
  have hpoints := denotes_sequence fun row (_ : row ∈ rows) =>
    denotes_ofPoint (α := α) place id row
  refine (hpoints.followedBy (denotes_single (.up id.value))).imp fun es => ?_
  have hentries (ps : List (Point α)) :
      (ps.flatMap fun p => [Gesture.Entry.point id p]) ++ [.up id] = Contacts.entriesOf (id, ps) :=
    congrArg (· ++ _) (List.flatMap_pure_eq_map _ ps)
  constructor
  · rintro ⟨_, _, ⟨ps, hps, rfl⟩, ⟨last, hlast, rfl⟩, rfl⟩
    obtain rfl := Touch.records_up_iff.mp hlast
    exact ⟨ps, hps, hentries ps⟩
  · rintro ⟨ps, hps, rfl⟩
    exact ⟨_, _, ⟨ps, hps, rfl⟩, ⟨.up id, .up id, rfl⟩, (hentries ps).symm⟩

theorem denotes_ofStroke (place : Nat) (entry : Value) :
    (ofStroke place entry).Denotes fun entries : List (Gesture.Entry α) =>
      ∃ c, entry.WritesContact place c ∧ entries = Contacts.entriesOf c := by
  unfold ofStroke
  split
  next members hmap =>
    dsimp only
    split
    next rows hrows =>
      by_cases hid : ∃ id : Name, (entry.field? "contact_id").getD (.int place) = id.value
      · obtain ⟨id, hid⟩ := hid
        rw [hid]
        refine (denotes_ofRows place id rows).imp fun es => ?_
        constructor
        · rintro ⟨ps, hps, rfl⟩
          exact ⟨(id, ps), ⟨⟨members, hmap⟩, hid, rows, hrows, hps⟩, rfl⟩
        · rintro ⟨⟨id', ps⟩, ⟨_, hid', rows', hrows', hps⟩, rfl⟩
          obtain rfl : id = id' := Name.value_injective (hid.symm.trans hid')
          obtain rfl : rows = rows' := Value.list.inj (hrows.symm.trans hrows')
          exact ⟨ps, hps, rfl⟩
      · -- Whether or not the points come out, a contact without a key is never lifted.
        refine denotes_followedBy_up (not_exists.mp hid) ?_
        rintro _ ⟨c, ⟨_, hc, _⟩, _⟩
        exact hid ⟨c.1, hc⟩
    next hrows =>
      refine denotes_stop ?_
      rintro _ ⟨c, ⟨_, _, rows, hpoints, _⟩, _⟩
      exact hrows rows hpoints
  next hmap =>
    refine denotes_stop ?_
    rintro _ ⟨c, ⟨⟨members, h⟩, _, _⟩, _⟩
    exact hmap members h

theorem ofStrokes_eq_sequence (index : Nat) (strokes : List Value) :
    ofStrokes index strokes =
      sequence ((strokes.zipIdx index).map fun e => ofStroke e.2 e.1) := by
  induction strokes generalizing index with
  | nil => rfl
  | cons s strokes ih => rw [ofStrokes, ih, List.zipIdx_cons, List.map_cons, sequence]

theorem denotes_ofStrokes (index : Nat) (strokes : List Value) :
    (ofStrokes index strokes).Denotes fun entries : List (Gesture.Entry α) =>
      ∃ cs : Contacts α, List.Forall₂ (fun e c => e.1.WritesContact e.2 c)
        (strokes.zipIdx index) cs ∧ entries = cs.log := by
  rw [ofStrokes_eq_sequence]
  exact denotes_sequence fun e _ => denotes_ofStroke e.2 e.1

end Script

end StrayTouch
