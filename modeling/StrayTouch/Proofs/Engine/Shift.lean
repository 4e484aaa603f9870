import StrayTouch.Proofs.Engine.Alike
import StrayTouch.Proofs.Engine.Defaults
import StrayTouch.Proofs.Gesture.Change
import StrayTouch.Proofs.Path
import StrayTouch.Proofs.Scalar.Plane

/-!
Shifts in time and in the plane. Everything that is asked of a stroke is asked of the differences
between its points, so that each contact may be shifted by an amount of its own.
-/
namespace StrayTouch

variable {α : Type} [Scalar α]

/-- A shift of the points of every contact, either of their times or of their positions. -/
inductive Shift (α : Type) where
  | inTime (amount : Key → Int)
  | inPlane (amount : Key → α × α)

namespace Shift

def point (s : Shift α) (contact : Key) (p : Point α) : Point α :=
  match s with
  | inTime amount => { p with time := p.time + amount contact }
  | inPlane amount => { p with x := p.x + (amount contact).1, y := p.y + (amount contact).2 }

/-- The differences in position between the points of each contact of a log stay as they are, and
none of these points leaves the range of the numbers. In time that is always so. -/
def Exact (s : Shift α) (log : List (Gesture.Entry α)) : Prop :=
  match s with
  | inTime _ => True
  | inPlane _ => ∀ id, ∀ p ∈ Gesture.Log.pointsOf log id,
    (s.point id.key p).isFinite = p.isFinite ∧
      ∀ q ∈ Gesture.Log.pointsOf log id,
        (s.point id.key q).x - (s.point id.key p).x = q.x - p.x ∧
          (s.point id.key q).y - (s.point id.key p).y = q.y - p.y

variable {s : Shift α} {log : List (Gesture.Entry α)}

theorem time_sub (s : Shift α) (contact : Key) (p q : Point α) :
    (s.point contact q).time - (s.point contact p).time = q.time - p.time := by
  cases s with
  | inTime amount => exact add_sub_add_right_eq_sub q.time p.time (amount contact)
  | inPlane amount => rfl

theorem size_eq (s : Shift α) (contact : Key) (p : Point α) :
    (s.point contact p).size = p.size := by
  cases s <;> rfl

theorem Exact.unnoticed (h : s.Exact log) : Gesture.Log.Unnoticed s.point log where
  time := by
    intro k p q
    rw [← Int.sub_nonneg, s.time_sub, Int.sub_nonneg]
  finite := by
    intro id p hp
    cases s with
    | inTime amount => rfl
    | inPlane amount =>
      have hpoint : p ∈ Gesture.Log.pointsOf log id :=
        List.mem_filterMap.mpr ⟨_, hp, by simp [Gesture.Entry.pointFor?, Name.sameKey_refl]⟩
      exact (h id p hpoint).1

theorem Exact.position_sub (h : s.Exact log) (id : Name) {p q : Point α}
    (hp : p ∈ Gesture.Log.pointsOf log id) (hq : q ∈ Gesture.Log.pointsOf log id) :
    (s.point id.key q).x - (s.point id.key p).x = q.x - p.x ∧
      (s.point id.key q).y - (s.point id.key p).y = q.y - p.y := by
  cases s with
  | inTime amount => exact ⟨rfl, rfl⟩
  | inPlane amount => exact (h id p hp).2 q hq

/-- In exact arithmetic every shift is exact. -/
theorem exact_of_field {K : Type} [Field K] [LinearOrder K] [FloorRing K] [Plane K] (s : Shift K)
    (log : List (Gesture.Entry K)) : s.Exact log := by
  cases s with
  | inTime amount => trivial
  | inPlane amount =>
    intro id p _
    have hfinite : (point (inPlane amount) id.key p).isFinite = p.isFinite := rfl
    exact ⟨hfinite, fun q _ => ⟨add_sub_add_right_eq_sub q.x p.x (amount id.key).1,
      add_sub_add_right_eq_sub q.y p.y (amount id.key).2⟩⟩

end Shift

/-- Strokes whose points are the same distance apart, in the plane and in time, are alike. -/
theorem Stroke.alike_map {dpi : α} {ps : List (Point α)} {f : Point α → Point α}
    (htime : ∀ p ∈ ps, ∀ q ∈ ps, (f q).time - (f p).time = q.time - p.time)
    (hsize : ∀ p, (f p).size = p.size)
    (hmove : ∀ p ∈ ps, ∀ q ∈ ps, (f q).x - (f p).x = q.x - p.x ∧ (f q).y - (f p).y = q.y - p.y) :
    (⟨dpi, ps, true⟩ : Stroke α).Alike ⟨dpi, ps.map f, true⟩ := by
  have hmoved : Path.Moved id (ps.map Point.position) ((ps.map f).map Point.position) := by
    rw [List.map_map]
    exact Path.moved_map fun p hp q hq => Prod.ext (hmove p hp q hq).1 (hmove p hp q hq).2
  obtain ⟨hsegments, hspan⟩ := hmoved
  rw [List.map_id] at hsegments
  rw [Option.map_id, id] at hspan
  refine ⟨(List.length_map f).symm, (durationNanos_map htime).symm, ?_, ?_, ?_, ?_⟩
  · simp only [totalLength, Path.length, positions, hsegments]
  · simp only [endPointLength_eq_span, positions, hspan]
  · simp only [headings, Path.headings, Path.rawHeadings, Path.moves, positions, hsegments]
  · have hsizes : (ps.map f).filterMap Point.size = ps.filterMap Point.size := by
      rw [List.filterMap_map]
      exact List.filterMap_congr fun p _ => hsize p
    simp only [meanSize, hsizes]

namespace Engine

/-- Only differences in time and in position matter. Whatever is touched, and however much the
points of each contact are shifted, in time or exactly in the plane: each touch comes out as it did
before, and the default classifiers decide the gesture in the same way, down to the last score. -/
theorem shift_irrelevant {settings : Settings α} {c : Config α}
    (hbuild : Config.build settings = .ok c) (dpi : α) (s : Shift α) (ts us : List Touch)
    (hus : us.map Touch.entry? = ts.map fun t => t.entry?.map (Gesture.Entry.changed s.point))
    (hs : s.Exact (Touch.log α ts)) :
    let before := (Gesture.empty dpi).follow ts
    let after := (Gesture.empty dpi).follow us
    let reply := ((standard c).step before.2 .evaluate).1
    after.1.map Option.isNone = before.1.map Option.isNone ∧
      ((standard c).step after.2 .evaluate).1 = reply ∧
      (before.2.strokeCount ≠ 0 → ∃ v, reply = .verdict v) := by
  intro before after reply
  obtain ⟨hfaults, entries, hsub, hr, ho⟩ := (Gesture.represents_empty dpi).follow_changed
    (Gesture.represents_empty dpi) hus hs.unnoticed
  rw [List.nil_append] at hr ho
  refine ⟨hfaults, ?_, fun hcount => ?_⟩
  · have hcontacts := Gesture.Log.contacts_changed (f := s.point) entries
    refine evaluate_alike c.dpi Variant.all (ho.capturing.trans hr.capturing.symm)
      (by rw [hr.contactIds_eq, ho.contactIds_eq, hcontacts]) ?_
    rw [strokes_freezeAll hr, strokes_freezeAll ho, hcontacts, List.forall₂_map_left_iff,
      List.forall₂_map_right_iff, List.forall₂_same]
    intro id _
    have hpoints : (Gesture.Log.pointsOf entries id).Sublist
        (Gesture.Log.pointsOf (Touch.log α ts) id) := hsub.filterMap _
    rw [frozenStroke, frozenStroke, Gesture.Log.pointsOf_changed]
    exact Stroke.alike_map (fun p _ q _ => s.time_sub id.key p q) (s.size_eq id.key)
      fun p hp q hq => hs.position_sub id (hpoints.subset hp) (hpoints.subset hq)
  · obtain ⟨panel, hp, _⟩ := Variant.exists_panel hbuild
    exact ⟨_, congrArg Prod.fst (step_evaluate_of_panel (e := standard c) hp hr.capturing hcount)⟩

/-- Two contacts, of which the first one comes later and the second one earlier than before. -/
def delayed : List Touch :=
  [.point (.int 1) ⟨.atom (.float 1.5), .atom (.float 0.5), .int 1000, .null⟩,
    .point (.int 2) ⟨.atom (.float 2.5), .atom (.float 0.5), .int (-4), .null⟩,
    .point (.int 1) ⟨.atom (.float 3.5), .atom (.float 0.5), .int 1002, .null⟩, .up (.int 1)]

def delay : Shift Float :=
  .inTime fun contact => if contact = (Name.int 1).key then 1000 else -5

/-- The same two contacts, each of them at another place. -/
def elsewhere : List Touch :=
  [.point (.int 1) ⟨.atom (.float 2.5), .atom (.float 0.25), .int 0, .null⟩,
    .point (.int 2) ⟨.atom (.float 0.5), .atom (.float 0.5), .int 1, .null⟩,
    .point (.int 1) ⟨.atom (.float 4.5), .atom (.float 0.25), .int 2, .null⟩, .up (.int 1)]

def offset : Shift Float :=
  .inPlane fun contact => if contact = (Name.int 1).key then (1.0, -0.25) else (-2.0, 0.0)

theorem exact_offset : offset.Exact (Touch.log Float inTurns) := by
  intro id
  have hlog : Touch.log Float inTurns = [.point (.int 1) ⟨1.5, 0.5, 0, none⟩,
      .point (.int 2) ⟨2.5, 0.5, 1, none⟩, .point (.int 1) ⟨3.5, 0.5, 2, none⟩,
      .up (.int 1)] := rfl
  rw [hlog]
  by_cases hfirst : (Name.int 1).sameKey id = true
  · have hsecond : (Name.int 2).sameKey id = false := by
      rw [Name.sameKey_eq_false_iff, ← Name.sameKey_iff.mp hfirst]
      decide
    rw [← Name.sameKey_iff.mp hfirst]
    simp only [Gesture.Log.pointsOf, List.filterMap_cons, List.filterMap_nil,
      Gesture.Entry.pointFor?, hfirst, hsecond, Bool.false_eq_true, ↓reduceIte]
    decide +kernel
  · by_cases hsecond : (Name.int 2).sameKey id = true
    · rw [← Name.sameKey_iff.mp hsecond]
      simp only [Gesture.Log.pointsOf, List.filterMap_cons, List.filterMap_nil,
        Gesture.Entry.pointFor?, hfirst, hsecond, Bool.false_eq_true, ↓reduceIte]
      decide +kernel
    · simp [Gesture.Log.pointsOf, List.filterMap_cons, Gesture.Entry.pointFor?, hfirst, hsecond]

theorem shifted_inTurns :
    ∃ c v, Config.build Settings.unset = .ok c ∧
      ((standard c).step ((Gesture.empty (160.0 : Float)).follow inTurns).2
        .evaluate).1 = .verdict v ∧
      ((standard c).step ((Gesture.empty (160.0 : Float)).follow delayed).2
        .evaluate).1 = .verdict v ∧
      ((standard c).step ((Gesture.empty (160.0 : Float)).follow elsewhere).2
        .evaluate).1 = .verdict v := by
  obtain ⟨c, hc⟩ := Config.exists_build_unset
  obtain ⟨_, hdelayed, hverdict⟩ := shift_irrelevant hc 160.0 delay inTurns delayed rfl trivial
  obtain ⟨_, helsewhere, _⟩ :=
    shift_irrelevant hc 160.0 offset inTurns elsewhere rfl exact_offset
  obtain ⟨v, hv⟩ := hverdict (by decide +kernel)
  exact ⟨c, v, hc, hv, hdelayed.trans hv, helsewhere.trans hv⟩

end Engine

end StrayTouch
