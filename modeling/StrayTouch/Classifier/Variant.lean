import StrayTouch.Classifier.Basic

/-!
The classifiers that come with the library, and the order in which they are used when no others
are named.
-/
namespace StrayTouch

inductive Variant where
  /-- Seconds for each point. -/
  | durationCount
  /-- Variance of the direction: a deliberate swipe keeps its heading. -/
  | anglesVariance
  /-- Inches each second. -/
  | speed
  | endPointLength
  /-- That distance over the length of the path. -/
  | endPointRatio
  | touchSize
  /-- Contacts beyond the first, counted at the first stroke only. -/
  | pointerCount
  deriving DecidableEq

namespace Variant

def all : List Variant :=
  [durationCount, anglesVariance, speed, endPointLength, endPointRatio, touchSize, pointerCount]

def tag : Variant → String
  | durationCount => "DUR"
  | anglesVariance => "ANG"
  | speed => "SPD"
  | endPointLength => "LEN"
  | endPointRatio => "RAT"
  | touchSize => "SIZ"
  | pointerCount => "PTR"

def feature : Variant → String
  | durationCount => "duration_count"
  | anglesVariance => "angles_variance"
  | speed => "speed"
  | endPointLength => "end_point_length"
  | endPointRatio => "end_point_ratio"
  | touchSize => "touch_size"
  | pointerCount => "pointer_count"

def minPoints : Variant → Nat
  | anglesVariance => 3
  | touchSize => 1
  | pointerCount => 1
  | _ => 2

def title : Variant → String
  | durationCount => "DurationCountClassifier"
  | anglesVariance => "AnglesVarianceClassifier"
  | speed => "SpeedClassifier"
  | endPointLength => "EndPointLengthClassifier"
  | endPointRatio => "EndPointRatioClassifier"
  | touchSize => "TouchSizeClassifier"
  | pointerCount => "PointerCountClassifier"

def ofTag? (tag : String) : Option Variant :=
  all.find? fun v => v.tag == tag

variable {α : Type} [Scalar α]

def read (v : Variant) (seen : Seen α) : Except Fault (Option α) :=
  let s := seen.stroke
  match v with
  | durationCount => do
    let seconds ← s.durationSeconds
    .ok (some (seconds / Scalar.ofNat s.count))
  | anglesVariance =>
    .ok (if s.headings.length < 2 then none else some s.headingVariance)
  | speed => do
    if s.durationNanos ≤ 0 then .ok none
    else .ok (some (← s.averageSpeed))
  | endPointLength => .ok (some s.endPointLength)
  | endPointRatio =>
    .ok (if Scalar.le s.totalLength Scalar.zero then none
      else some (s.endPointLength / s.totalLength))
  | touchSize => s.meanSize
  | pointerCount =>
    .ok (if seen.isFirst then some (Scalar.ofNat (seen.strokes.length - 1)) else none)

def classifier (v : Variant) : Classifier α where
  tag := .text v.tag
  feature := .text v.feature
  answer := fun ev seen =>
    scoreFeature (decide (seen.stroke.count < v.minPoints))
      (fun seen => do .ok ((← v.read seen).map .number)) ev seen

def defaults : List (Classifier α) :=
  all.map classifier

end Variant

end StrayTouch
