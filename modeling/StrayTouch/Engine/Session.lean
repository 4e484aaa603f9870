import StrayTouch.Engine.Trace
import StrayTouch.Tuning.Log

/-!
Sessions: an engine with the gestures it has begun, each named by its number, and the tuning log
that hears of every verdict. A command is a sequence of steps on all that the session holds. The
tuning log may fail; its failure ends there, and the verdict is delivered all the same.
-/
namespace StrayTouch

/-- What hears of verdicts: nothing, a tuning log, or anything else, which answers as it likes to
the reports it has heard so far. -/
inductive Listener where
  | absent
  | log (t : TuningLog)
  | other (answer : List Report → Except Fault Unit) (heard : List Report)

namespace Listener

def failing (f : Fault) : Listener :=
  other (fun _ => .error f) []

def hear (l : Listener) (r : Report) : Except Fault Unit × Listener × List Record :=
  match l with
  | absent => (.ok (), absent, [])
  | log t =>
    let (result, after, records) := t.log r
    (result, log after, records)
  | other answer heard => (answer (heard ++ [r]), other answer (heard ++ [r]), [])

/-- A report is taken. Taking it may fail, and what the listener has done with it stays done. -/
def take (r : Report) : Steps Listener Unit := fun l =>
  match l.hear r with
  | (.ok (), after, _) => .ok () after
  | (.error f, after, _) => .error f after

end Listener

structure Session (α : Type) where
  engine : Engine α
  handles : List (Gesture α)
  listener : Listener

inductive Command where
  | begin
  | call (handle : Nat) (c : Call)

inductive Response (α : Type) where
  | handle (n : Nat)
  | reply (r : Reply α)
  | unknownHandle

variable {α : Type} [Scalar α]

namespace Session

def start (e : Engine α) (l : Listener) : Session α :=
  ⟨e, [], l⟩

def inform (l : Listener) : Reply α → Listener × List Record
  | .verdict v =>
    let (result, after, records) := l.hear v.report
    match result with
    | .ok () => (after, records)
    | .error f =>
      (after, records ++
        [⟨Level.error, .engine,
          .ok ("Tuning logger failed; verdict " ++ v.decision.name ++ " still delivered"),
          some f⟩])
  | _ => (l, [])

/-- Steps on the gesture of a handle, among all that its session holds. -/
def onHandle {β : Type} (n : Nat) (m : Steps (Gesture α) β) : Steps (Session α) (Option β) :=
  fun s =>
    match s.handles[n]? with
    | none => .ok none s
    | some g =>
      match m.run g with
      | .ok x after => .ok (some x) ⟨s.engine, s.handles.set n after, s.listener⟩
      | .error f after => .error f ⟨s.engine, s.handles.set n after, s.listener⟩

def onListener {β : Type} (m : Steps Listener β) : Steps (Session α) β := fun s =>
  match m.run s.listener with
  | .ok x after => .ok x ⟨s.engine, s.handles, after⟩
  | .error f after => .error f ⟨s.engine, s.handles, after⟩

/-- The steps of a command. A verdict is reported before it is delivered, and a report that fails
does not keep it back. -/
def perform : Command → Steps (Session α) (Response α)
  | .begin => do
    let s ← get
    set (⟨s.engine, s.handles ++ [s.engine.beginGesture], s.listener⟩ : Session α)
    return .handle s.handles.length
  | .call n c => do
    let engine := (← get).engine
    match ← onHandle n (engine.perform c) with
    | none => return .unknownHandle
    | some reply =>
      if let .verdict v := reply then
        let _ ← Steps.attempt (onListener (Listener.take v.report))
      return .reply reply

def trace (s : Session α) : Command → Response α → List Record
  | .call n c, .reply r =>
    match s.handles[n]? with
    | some g => s.engine.trace g c ++ (inform s.listener r).2
    | none => []
  | _, _ => []

/-- One command: the response, the session as the steps of the command have left it, and what is
logged about it. -/
def step (s : Session α) (c : Command) : Response α × Session α × List Record :=
  match (perform c).run s with
  | .ok response after => (response, after, s.trace c response)
  | .error f after => (.reply (.refused f), after, s.trace c (.reply (.refused f)))

def run (s : Session α) : List Command → List (Response α) × Session α × List Record
  | [] => ([], s, [])
  | c :: rest =>
    let (response, after, records) := s.step c
    let (responses, last, more) := after.run rest
    (response :: responses, last, records ++ more)

end Session

end StrayTouch
