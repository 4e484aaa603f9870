import StrayTouch.Classifier.Basic
import StrayTouch.Document.Order

/-!
Classifiers whose feature is given beforehand. They stand for extensions, which may read
anything, fail in any way, or answer without looking at the stroke.
-/
namespace StrayTouch

structure Scripted where
  tag : Value
  feature : Value
  minPoints : Value
  /-- What the feature is on every stroke; null where no stroke has it. -/
  reading : Except Fault Value
  /-- An answer that does not depend on the feature. -/
  score? : Option Value

namespace Scripted

variable {α : Type} [Scalar α]

def read (s : Scripted) : Except Fault (Option (Reading α)) := do
  let v ← s.reading
  .ok (if v.isNull then none else some (.value v))

def isShort (s : Scripted) (seen : Seen α) : Except Fault Bool :=
  (Value.int seen.stroke.count).less s.minPoints

def title : String := "Custom"

def classifier (s : Scripted) : Classifier α where
  tag := s.tag
  feature := s.feature
  answer := fun ev seen =>
    match s.score? with
    | some v => .ok (.value v)
    | none => do scoreFeature (← s.isShort seen) (fun _ => s.read) ev seen

end Scripted

/-- A classifier that is given no feature: it has no table, and asking for the feature is a fault
of its own. -/
def unspecified : Scripted where
  tag := .text "BASE"
  feature := .null
  minPoints := .int 2
  reading := .error .featureUndefined
  score? := none

def unspecifiedTitle : String := "StrokeClassifier"

end StrayTouch
