import StrayTouch.Engine.Session
import StrayTouch.Memory.Basic

/-!
Sessions on memory. Classifiers and the listener are programs that may read and write whatever there
is; a call on a gesture is a sequence of steps on the memory that all gestures share.
-/
namespace StrayTouch

/-- The class of a classifier. Its tag and its feature may be among what it keeps, and to answer for
a stroke, which is the one at some place in the gesture of a handle, it may do anything. -/
structure Program (α κ : Type) where
  tag : κ → Value
  feature : κ → Value
  answer : Evaluator α → (handle place : Nat) → Steps (Memory α κ) (Reading α)

/-- What an engine calls: its classifiers, and the listener that hears of verdicts. -/
structure Callbacks (α κ : Type) where
  classifiers : List (Program α κ)
  hear : Verdict α → Steps (Memory α κ) Unit

/-- A classifier that has taken its seat, with the table of its feature. -/
structure Program.Seat (α κ : Type) where
  program : Program α κ
  tag : Name
  evaluator : Evaluator α

variable {α κ : Type} [Scalar α]

namespace Program.Seat

def tryScore (s : Seat α κ) (n place : Nat) : Steps (Memory α κ) (Option α) :=
  Steps.attempt do
    let answer ← s.program.answer s.evaluator n place
    Steps.of answer.toReal

end Program.Seat

namespace Memory

open Program (Seat)

def seat (ps : List (Program α κ)) : Steps (Memory α κ) (List (Seat α κ)) := do
  let m ← get
  let tables ← Steps.of (ps.mapM fun p => m.config.evaluatorFor (p.feature m.kept))
  let tags ← Steps.of (ps.mapM fun p => (p.tag m.kept).toName)
  if Member.areDistinct tags then
    return List.zipWith (fun p (t, ev) => ⟨p, t, ev⟩) ps (tags.zip tables)
  else throw (.duplicateTags (tags.map Name.value))

def scoreSeat (n place : Nat) (before : List (Name × α) × Tally α) (s : Seat α κ) :
    Steps (Memory α κ) (List (Name × α) × Tally α) := do
  let score? ← s.tryScore n place
  let policy := (← get).config.failurePolicy
  Tally.book s.tag score? (policy.substitute s.evaluator) before

def scoreStroke (n : Nat) (panel : List (Seat α κ)) (t : Tally α) (stroke : Name × Seen α) :
    Steps (Memory α κ) (Tally α) := do
  let (entries, t) ← panel.foldlM (scoreSeat n stroke.2.place) ([], t)
  return ⟨t.scores, Keyed.put t.strokeScores stroke.1 entries, t.failed⟩

def decideGesture (ps : List (Program α κ)) (n : Nat) : Steps (Memory α κ) (Verdict α) := do
  let panel ← seat ps
  let g ← read n
  if g.phase ≠ .capturing then throw (.notEvaluable g.phase)
  if g.strokeCount = 0 then throw .emptyGesture
  setPhase n .evaluating
  freezeAll n
  let evaluated ← read n
  let tally ← evaluated.seen.foldlM (scoreStroke n panel) (Tally.start (panel.map Seat.tag))
  let verdict := Verdict.ofTally (← get).config tally
  setPhase n .decided
  return verdict

def call (b : Callbacks α κ) (n : Nat) : Call → Steps (Memory α κ) (Reply α)
  | .point id sample => do
    takePoint n id sample
    return .done
  | .up id => do
    liftContact n id
    return .done
  | .cancel => do
    giveUp n
    return .done
  | .evaluate => return .verdict (← decideGesture b.classifiers n)

/-- The steps of a command. A verdict is reported before it is delivered, and a report that fails
does not keep it back. -/
def perform (b : Callbacks α κ) : Command → Steps (Memory α κ) (Response α)
  | .begin => return .handle (← begin)
  | .call n c => do
    if n < (← get).gestures.length then
      let reply ← call b n c
      if let .verdict v := reply then
        let _ ← Steps.attempt (b.hear v)
      return .reply reply
    else return .unknownHandle

def step (b : Callbacks α κ) (m : Memory α κ) (c : Command) : Response α × Memory α κ :=
  match (perform b c).run m with
  | .ok response after => (response, after)
  | .error f after => (.reply (.refused f), after)

def run (b : Callbacks α κ) (m : Memory α κ) : List Command → List (Response α) × Memory α κ
  | [] => ([], m)
  | c :: rest =>
    let (response, after) := step b m c
    let (responses, last) := run b after rest
    (response :: responses, last)

end Memory

/-- A classifier as a program that keeps nothing and writes nothing. -/
def Classifier.program (k : Classifier α) : Program α κ where
  tag := fun _ => k.tag
  feature := fun _ => k.feature
  answer := fun ev n place => do
    match (← get).seen? n place with
    | some seen => Steps.of (k.answer ev seen)
    | none => throw (.keyMissing (.int place))

end StrayTouch
