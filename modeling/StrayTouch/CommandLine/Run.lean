import StrayTouch.CommandLine.Arguments
import StrayTouch.Disk.Basic
import StrayTouch.Engine.Session
import StrayTouch.LogOutput
import StrayTouch.Recording.Replay
import StrayTouch.Yaml.Load

/-!
What the command line does: it reads a configuration and a recorded gesture, replays the gesture
and prints the verdict. A fault that a user can mend is logged and ends the run; any other escapes.
-/
namespace StrayTouch

def Fault.Kind.isReported : Kind → Bool
  | overflow | missingKey | position | missingAttribute | unimplemented | depth | named _ => false
  | _ => true

/-- Whether a fault ends the run with a line in the log. -/
def Fault.isReported (f : Fault) : Bool :=
  f.kind.isReported

def Verdict.lines (v : Verdict Float) : List String :=
  let number := Decimal.general 6
  (v.decision.title ++ "  aggregate=" ++ number v.aggregate ++ "  threshold="
      ++ number v.threshold) ::
    v.scores.map fun e => "   " ++ e.1.spoken ++ ": " ++ number e.2

structure Outcome where
  exitCode : Nat
  printed : List String
  records : List Record

namespace Outcome

def ofVerdict (records : List Record) (v : Verdict Float) : Outcome :=
  ⟨if v.decision = .accept then 0 else 1, v.lines, records⟩

def ofFault (records : List Record) (f : Fault) : Except Fault Outcome :=
  if f.isReported then
    .ok ⟨2, [], records ++ [.error .commandLine f.message]⟩
  else .error f

end Outcome

structure Plan where
  config : Config Float
  recording : Value

namespace Invocation

def readSettings (i : Invocation) (text : Except Fault String) :
    Except Fault (Settings Float) × List Record :=
  match text.bind Yaml.load with
  | .error f => (.error f, [])
  | .ok document => (Settings.ofDocument [] document, [.loaded i.config])

def readConfig (i : Invocation) (text : Except Fault String) :
    Except Fault (Config Float) × List Record :=
  if i.config.isEmpty then (Config.ofDocument [] .null, [])
  else
    match i.readSettings text with
    | (.error f, records) => (.error f, records)
    | (.ok settings, records) => (Config.build settings, records ++ settings.trace)

def readRecording (path : String) (text : Except Fault String) : Except Fault Value := do
  let document ← Yaml.load (← text)
  match document.field? "strokes" with
  | some strokes =>
    match strokes.head with
    | .list _ => .ok document
    | _ => .error (.strokesMissing path)
  | none => .error (.strokesMissing path)

/-- The configuration and the recording. The recording may name the density of its display. -/
def prepare (i : Invocation) (configText gestureText : Except Fault String) :
    Except Fault Plan × List Record :=
  match i.readConfig configText with
  | (.error f, records) => (.error f, records)
  | (.ok config, records) =>
    match readRecording (i.gesture.getD "") gestureText with
    | .error f => (.error f, records)
    | .ok recording =>
      let dpi := recording.field "dpi"
      let announced :=
        if dpi.isNull then records else records ++ (config.settingsAt dpi).trace
      ((config.forRecording recording).map fun c => ⟨c, recording⟩, announced)

end Invocation

namespace Plan

def replay (p : Plan) (log : TuningLog) :
    Except Fault (Verdict Float) × Listener × List Record :=
  let engine := Engine.standard p.config
  match p.recording.script with
  | .error f => (.error f, .log log, [])
  | .ok script =>
    let records := engine.traceReplay script
    match engine.replay script with
    | .error f => (.error f, .log log, records)
    | .ok v =>
      let (listener, more) := Session.inform (.log log) (.verdict v)
      (.ok v, listener, records ++ more)

end Plan

def Listener.lines : Listener → List String
  | .log t => t.lines
  | _ => []

def Listener.closingFault? : Listener → Option Fault
  | .log t => t.closingFault?
  | _ => none

namespace Invocation

/-- The end of a run whose tuning log has been opened: the outcome, and the lines for the file. The
file is closed before the verdict is printed. -/
def finish (records : List Record) (p : Plan) (log : TuningLog) :
    Except Fault Outcome × List String :=
  let (result, listener, more) := p.replay log
  let outcome :=
    match result, listener.closingFault? with
    | .ok v, none => .ok (Outcome.ofVerdict (records ++ more) v)
    | .ok _, some f => Outcome.ofFault (records ++ more) f
    | .error f, _ => Outcome.ofFault (records ++ more) f
  (outcome, listener.lines)

def fileAt (d : Disk) (here : List String) : LineFile :=
  if d.entryAt here == some (.device .full) then .full else .opened []

def run (i : Invocation) (d : Disk) : Except Fault Outcome × Disk :=
  match i.prepare (d.read i.config) (d.read (i.gesture.getD "")) with
  | (.error f, records) => (Outcome.ofFault records f, d)
  | (.ok plan, records) =>
    let target := d.target i.tuningLog
    match TuningLog.opening i.tuningLog (target.map (fileAt d)) with
    | .error f => (Outcome.ofFault records f, d)
    | .ok (log, warnings) =>
      let (outcome, lines) := finish (records ++ warnings) plan log
      match i.tuningLog.isEmpty, target with
      | false, .ok here => (outcome, d.append here (String.join (lines.map (· ++ "\n"))))
      | _, _ => (outcome, d)

/-- A whole run. The level of the log is read before anything else, and a fault of it escapes
whatever its kind. -/
def perform (i : Invocation) (d : Disk) : Except Fault (LogOutput × Outcome) × Disk :=
  match LogOutput.ofArguments d [i.logLevel] with
  | .error f => (.error f, d)
  | .ok output =>
    let (outcome, after) := i.run d
    (outcome.map fun o => (output, o), after)

end Invocation

end StrayTouch
