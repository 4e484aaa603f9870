import StrayTouch.Config.Basic
import StrayTouch.Gesture.Basic

/-!
Classifiers: each reads one feature off a stroke and scores it with the table of that feature.
A stroke too short for the feature, or without it, scores the floor.
-/
namespace StrayTouch

/-- A stroke as a classifier sees it: one of the strokes of its gesture, at its place among them. -/
structure Seen (α : Type) where
  stroke : Stroke α
  place : Nat
  strokes : List (Stroke α)

def Seen.isFirst {α : Type} (s : Seen α) : Bool :=
  s.place == 0

def Gesture.seen {α : Type} (g : Gesture α) : List (Name × Seen α) :=
  let strokes := g.contacts.map Prod.snd
  g.contacts.zipIdx.map fun c => (c.1.1, ⟨c.1.2, c.2, strokes⟩)

/-- A classifier: a tag, which should be a key, the feature whose table it uses, and what it
answers for a stroke, which may be anything or a fault. -/
structure Classifier (α : Type) where
  tag : Value
  feature : Value
  answer : Evaluator α → Seen α → Except Fault (Reading α)

variable {α : Type} [Scalar α]

/-- The answer that the table gives to a feature. The feature is not asked for on strokes that are
too short for it. -/
def scoreFeature (isShort : Bool) (feature : Seen α → Except Fault (Option (Reading α)))
    (ev : Evaluator α) (seen : Seen α) : Except Fault (Reading α) :=
  if isShort then .ok (.number ev.floor)
  else
    match feature seen with
    | .error f => .error f
    | .ok none => .ok (.number ev.floor)
    | .ok (some r) => (ev.score r).map .number

end StrayTouch
