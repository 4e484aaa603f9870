import StrayTouch.Config.Document
import StrayTouch.Engine.Basic
import StrayTouch.Record

/-!
What is logged about building a configuration and about the calls on a gesture.
-/
namespace StrayTouch

variable {α : Type} [Scalar α]

def Settings.trace (s : Settings α) : List Record :=
  s.extraFeatures.map fun name =>
    ⟨Level.info, .settings,
      name.value.written.map fun n => "Adding table for extra feature '" ++ n ++ "'", none⟩

def Record.loaded (path : String) : Record :=
  .info .settings ("Loaded classifier config from " ++ path)

def Settings.traceDocument (built : List (Name × Evaluator α)) (document : Value) :
    List Record :=
  match Settings.ofDocument built document with
  | .ok s => s.trace
  | .error _ => []

def Gesture.tracePoint (g : Gesture α) (id : Value) (sample : Sample) : List Record :=
  match g.addPoint id sample with
  | .ok after =>
    if g.strokeCount < after.strokeCount then
      [⟨Level.debug, .gesture, id.written.map fun name => "Contact " ++ name ++ " down", none⟩]
    else []
  | .error _ => []

def Gesture.traceUp (g : Gesture α) (id : Value) : List Record :=
  match g.endStroke id, id.toName with
  | .ok after, .ok key =>
    let count := ((after.stroke? key).map Stroke.count).getD 0
    [⟨Level.debug, .gesture,
      id.written.map fun name =>
        "Contact " ++ name ++ " up after " ++ toString count ++ " points", none⟩]
  | _, _ => []

def Judgement.trace (stroke : Stroke α) (j : Judgement α) : List Record :=
  match j.outcome with
  | .ok _ => []
  | .error f =>
    [⟨Level.error, .verdict,
      stroke.shown.map fun s => "Classifier " ++ j.tag.spoken ++ " failed on " ++ s, some f⟩]

def shownScores (scores : List (Name × α)) : String :=
  "\x7b" ++
    ", ".intercalate (scores.map fun e =>
      e.1.shown ++ ": " ++ Decimal.shown (Scalar.toFloat e.2))
    ++ "\x7d"

def Verdict.trace (v : Verdict α) : Record :=
  .debug .verdict
    ("Gesture " ++ v.decision.name ++ ": aggregate "
      ++ Decimal.fixed 2 (Scalar.toFloat v.aggregate) ++ " vs threshold "
      ++ Decimal.fixed 2 (Scalar.toFloat v.threshold) ++ " " ++ shownScores v.scores)

/-- A decision while contacts are down is noted, then each failure, then the verdict. -/
def Engine.traceEvaluate (e : Engine α) (g : Gesture α) : List Record :=
  let early :=
    if g.activeContacts.isEmpty then []
    else
      let contacts := Value.list (g.activeContacts.map Name.value)
      [⟨Level.debug, .engine, contacts.written.map fun shown =>
        "Early decision with contacts still down: " ++ shown, none⟩]
  match e.judge g with
  | .error _ => early
  | .ok (evaluated, panel, judged) =>
    let failures := (evaluated.strokes.zip judged).flatMap fun p =>
      p.2.2.flatMap (Judgement.trace p.1)
    let verdict := Verdict.ofJudgements e.config (panel.map Member.tag) judged
    early ++ failures ++ [verdict.trace]

def Gesture.traceCancel (g : Gesture α) : List Record :=
  match g.cancel with
  | .ok _ =>
    [.debug .engine ("Gesture cancelled with " ++ toString g.strokeCount ++ " strokes")]
  | .error _ => []

def Engine.trace (e : Engine α) (g : Gesture α) : Call → List Record
  | .point id sample => g.tracePoint id sample
  | .up id => g.traceUp id
  | .cancel => g.traceCancel
  | .evaluate => e.traceEvaluate g

end StrayTouch
