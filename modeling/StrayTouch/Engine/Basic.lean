import StrayTouch.Classifier.Variant
import StrayTouch.Engine.Scoring

/-!
The engine: touch events become strokes, and a gesture becomes a verdict. A call is a sequence of
steps on the handle of a gesture; `Engine.judge` and `Engine.evaluate` say what the steps of an
evaluation come to.
-/
namespace StrayTouch

structure Engine (α : Type) where
  config : Config α
  classifiers : List (Classifier α)

variable {α : Type} [Scalar α]

/-- A gesture enters its evaluation: it must be open and have a stroke, and all its contacts are
taken as lifted. -/
def Gesture.beginEvaluation (g : Gesture α) : Except Fault (Gesture α) :=
  if g.phase ≠ .capturing then .error (.notEvaluable g.phase)
  else if g.strokeCount = 0 then .error .emptyGesture
  else .ok (g.freezeAll.withPhase .evaluating)

namespace Engine

def standard (c : Config α) : Engine α :=
  ⟨c, Variant.defaults⟩

def beginGesture (e : Engine α) : Gesture α :=
  Gesture.empty e.config.dpi

def judgements (e : Engine α) (panel : List (Member α)) (g : Gesture α) :
    List (Name × List (Judgement α)) :=
  g.seen.map fun s => (s.1, panel.map (Member.judge e.config.failurePolicy s.2))

def judge (e : Engine α) (g : Gesture α) :
    Except Fault (Gesture α × List (Member α) × List (Name × List (Judgement α))) := do
  let panel ← Member.panel e.config e.classifiers
  let opened ← g.beginEvaluation
  .ok (opened, panel, e.judgements panel opened)

def evaluate (e : Engine α) (g : Gesture α) : Except Fault (Verdict α × Gesture α) := do
  let (evaluated, panel, judged) ← e.judge g
  .ok (Verdict.ofJudgements e.config (panel.map Member.tag) judged,
    evaluated.withPhase .decided)

/-- The evaluation of a gesture, step by step. The panel is looked at first, then the gesture; the
gesture is being decided from when it has been found fit until all scores are added up. -/
def decideGesture (e : Engine α) : Steps (Gesture α) (Verdict α) := do
  let panel ← Steps.of (Member.panel e.config e.classifiers)
  let g ← get
  if g.phase ≠ .capturing then throw (.notEvaluable g.phase)
  if g.strokeCount = 0 then throw .emptyGesture
  modify fun g => g.withPhase .evaluating
  modify Gesture.freezeAll
  let evaluated ← get
  let tally ← evaluated.seen.foldlM (Tally.scoreStroke e.config.failurePolicy panel)
    (Tally.start (panel.map Member.tag))
  let verdict := Verdict.ofTally e.config tally
  modify fun g => g.withPhase .decided
  return verdict

end Engine

inductive Call where
  | point (id : Value) (sample : Sample)
  | up (id : Value)
  | evaluate
  | cancel

inductive Reply (α : Type) where
  | done
  | verdict (v : Verdict α)
  | refused (f : Fault)

namespace Engine

def perform (e : Engine α) : Call → Steps (Gesture α) (Reply α)
  | .point id sample => do
    Gesture.takePoint id sample
    return .done
  | .up id => do
    Gesture.liftContact id
    return .done
  | .cancel => do
    Gesture.giveUp
    return .done
  | .evaluate => return .verdict (← e.decideGesture)

/-- One call on a gesture: the reply, and the gesture as the steps of the call have left it. -/
def step (e : Engine α) (g : Gesture α) (call : Call) : Reply α × Gesture α :=
  match (e.perform call).run g with
  | .ok reply after => (reply, after)
  | .error f after => (.refused f, after)

def run (e : Engine α) (g : Gesture α) : List Call → List (Reply α) × Gesture α
  | [] => ([], g)
  | call :: rest =>
    let (reply, after) := e.step g call
    let (replies, last) := e.run after rest
    (reply :: replies, last)

end Engine

end StrayTouch
