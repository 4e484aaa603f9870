import StrayTouch.Engine.Trace
import StrayTouch.Recording.Script

/-!
Replaying a recording: its calls are performed on a new gesture, and the gesture is evaluated.
-/
namespace StrayTouch

variable {α : Type} [Scalar α]

namespace Engine

/-- Calls on a gesture up to the first that is refused. -/
def performAll (e : Engine α) (g : Gesture α) : List Call → Except Fault (Gesture α)
  | [] => .ok g
  | call :: rest =>
    match e.step g call with
    | (.refused f, _) => .error f
    | (_, after) => e.performAll after rest

def record (e : Engine α) (script : Script) : Except Fault (Gesture α) := do
  let g ← e.performAll e.beginGesture script.calls
  match script.fault? with
  | some f => .error f
  | none => .ok g

def replay (e : Engine α) (script : Script) : Except Fault (Verdict α) := do
  let g ← e.record script
  .ok (← e.evaluate g).1

def tracePerformAll (e : Engine α) (g : Gesture α) : List Call → List Record
  | [] => []
  | call :: rest =>
    e.trace g call ++
      match e.step g call with
      | (.refused _, _) => []
      | (_, after) => e.tracePerformAll after rest

def traceReplay (e : Engine α) (script : Script) : List Record :=
  e.tracePerformAll e.beginGesture script.calls ++
    match e.record script with
    | .ok g => e.traceEvaluate g
    | .error _ => []

end Engine

def Value.script (recording : Value) : Except Fault Script := do
  match recording.field? "strokes" with
  | none => .error (.keyMissing (.text "strokes"))
  | some strokes => .ok (Script.ofStrokes 0 (← strokes.items))

/-- The configuration that a recording is evaluated with: it may name the density of its
display. -/
def Config.forRecording (c : Config α) (recording : Value) : Except Fault (Config α) :=
  let dpi := recording.field "dpi"
  if dpi.isNull then .ok c else c.withDpi dpi

def replayRecording (c : Config α) (recording : Value) : Except Fault (Verdict α) := do
  match recording.head with
  | .map _ =>
    let config ← c.forRecording recording
    (Engine.standard config).replay (← recording.script)
  | v => .error (.attributeMissing v.typeName "get")

end StrayTouch
