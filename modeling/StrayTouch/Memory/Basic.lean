import StrayTouch.Classifier.Basic
import StrayTouch.Config.Steps

/-!
Memory: all that an engine and its gestures hold, where any step could write to any part of it. The
strokes stand in one list, and a gesture knows the places of its own; the tables of the
configuration stand on a shelf; and what classifiers and listeners keep for themselves is there for
all of them.
-/
namespace StrayTouch

/-- A gesture whose strokes stand in memory, each at its place. -/
structure Gesture.Placed (α : Type) where
  dpi : α
  phase : Phase
  contacts : List (Name × Nat)

def Gesture.Placed.places {α : Type} (g : Gesture.Placed α) : List Nat :=
  g.contacts.map Prod.snd

structure Memory (α κ : Type) where
  shelf : Shelf α
  settings : Config.Placed α
  strokes : List (Stroke α)
  gestures : List (Gesture.Placed α)
  /-- What classifiers and listeners keep. -/
  kept : κ

variable {α κ : Type}

def TableSource.built? : TableSource α → Option (Evaluator α)
  | .built ev => some ev
  | .written _ => none

/-- The configuration that settings stand for, as its tables are on the shelf. -/
def Config.Placed.shown (p : Config.Placed α) (shelf : Shelf α) : Config α where
  dpi := p.dpi
  rejectThreshold := p.rejectThreshold
  tiePolicy := p.tiePolicy
  failurePolicy := p.failurePolicy
  tables := (shelf.getD p.place []).filterMap fun e => e.2.built?.map fun ev => (e.1, ev)

namespace Memory

def withStrokes (m : Memory α κ) (strokes : List (Stroke α)) : Memory α κ :=
  ⟨m.shelf, m.settings, strokes, m.gestures, m.kept⟩

def withGestures (m : Memory α κ) (gestures : List (Gesture.Placed α)) : Memory α κ :=
  ⟨m.shelf, m.settings, m.strokes, gestures, m.kept⟩

def withKept (m : Memory α κ) (kept : κ) : Memory α κ :=
  ⟨m.shelf, m.settings, m.strokes, m.gestures, kept⟩

/-- A memory that holds a configuration and no gesture. -/
def start (c : Config α) (kept : κ) : Memory α κ where
  shelf := [c.tables.map fun t => (t.1, .built t.2)]
  settings := ⟨c.dpi, c.rejectThreshold, c.tiePolicy, c.failurePolicy, 0⟩
  strokes := []
  gestures := []
  kept := kept

def config (m : Memory α κ) : Config α :=
  m.settings.shown m.shelf

@[simp] theorem config_start (c : Config α) (kept : κ) : (start c kept).config = c := by
  have htables : (start c kept).config.tables = c.tables :=
    List.filterMap_map.trans List.filterMap_some
  exact congrArg (fun tables =>
    (⟨c.dpi, c.rejectThreshold, c.tiePolicy, c.failurePolicy, tables⟩ : Config α)) htables

/-- A gesture with the strokes that stand at its places. -/
def shown (m : Memory α κ) (g : Gesture.Placed α) : Gesture α :=
  ⟨g.dpi, g.phase, g.contacts.map fun c => (c.1, m.strokes.getD c.2 (Stroke.empty g.dpi))⟩

def shownGestures (m : Memory α κ) : List (Gesture α) :=
  m.gestures.map m.shown

/-- A stroke of a gesture as a classifier sees it. -/
def seen? (m : Memory α κ) (n place : Nat) : Option (Seen α) := do
  let g ← m.shownGestures[n]?
  let s ← g.seen[place]?
  return s.2

variable {β : Type}

def found (xs : List β) (i : Nat) : Steps (Memory α κ) β :=
  match xs[i]? with
  | some x => return x
  | none => throw (.keyMissing (.int i))

def read (n : Nat) : Steps (Memory α κ) (Gesture α) := do
  found (← get).shownGestures n

def place? (n : Nat) (key : Name) : Steps (Memory α κ) (Option Nat) := do
  let g ← found (← get).gestures n
  return Keyed.get? g.contacts key

def lay (s : Stroke α) : Steps (Memory α κ) Nat := do
  let m ← get
  set (m.withStrokes (m.strokes ++ [s]))
  return m.strokes.length

def onStroke (place : Nat) (steps : Steps (Stroke α) Unit) : Steps (Memory α κ) Unit := fun m =>
  match m.strokes[place]? with
  | none => .error (.keyMissing (.int place)) m
  | some s =>
    match steps.run s with
    | .ok _ after => .ok () (m.withStrokes (m.strokes.set place after))
    | .error f after => .error f (m.withStrokes (m.strokes.set place after))

def enter (n : Nat) (key : Name) (place : Nat) : Steps (Memory α κ) Unit :=
  modify fun m => m.withGestures (m.gestures.modify n fun g =>
    ⟨g.dpi, g.phase, Keyed.put g.contacts key place⟩)

def setPhase (n : Nat) (phase : Phase) : Steps (Memory α κ) Unit :=
  modify fun m => m.withGestures (m.gestures.modify n fun g => ⟨g.dpi, phase, g.contacts⟩)

def freezeAll (n : Nat) : Steps (Memory α κ) Unit := do
  let g ← found (← get).gestures n
  forM g.places fun place => onStroke place (modify Stroke.freeze)

/-- A gesture begins at the density of the configuration, without a stroke. -/
def begin : Steps (Memory α κ) Nat := do
  let m ← get
  set (m.withGestures (m.gestures ++ [⟨m.config.dpi, .capturing, []⟩]))
  return m.gestures.length

variable [Scalar α]

/-- A sample of a contact is taken. A contact without a stroke gets one once its stroke has a
point. -/
def takePoint (n : Nat) (id : Value) (sample : Sample) : Steps (Memory α κ) Unit := do
  Steps.of (← read n).requireCapturing
  let point ← Steps.of sample.toPoint
  let key ← Steps.of id.toName
  match ← place? n key with
  | some place => onStroke place (Stroke.take point)
  | none =>
    let place ← lay (Stroke.empty (← read n).dpi)
    onStroke place (Stroke.take point)
    enter n key place

def liftContact (n : Nat) (id : Value) : Steps (Memory α κ) Unit := do
  Steps.of (← read n).requireCapturing
  let key ← Steps.of id.toName
  match ← place? n key with
  | some place => onStroke place (modify Stroke.freeze)
  | none => throw (.unknownContact key)

def giveUp (n : Nat) : Steps (Memory α κ) Unit := do
  if (← read n).phase = .decided then throw .alreadyDecided
  freezeAll n
  setPhase n .decided

end Memory

end StrayTouch
