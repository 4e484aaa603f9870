import StrayTouch.CommandLine.Run

/-!
The command line as a program. It reads and writes files and prints; all it prints and decides is
made elsewhere.
-/
namespace StrayTouch

def faultOf (path : String) : IO.Error → Fault
  | .noFileOrDirectory .. => .fileMissing path
  | .inappropriateType .. => .fileIsDirectory path
  | e => .fileFailed e.toString

def readText (path : String) : IO (Except Fault String) := do
  try
    return .ok (← IO.FS.readFile path)
  catch e =>
    return .error (faultOf path e)

def openToAppend (path : String) : IO (Except Fault IO.FS.Handle) := do
  try
    return .ok (← IO.FS.Handle.mk path .append)
  catch e =>
    return .error (faultOf path e)

def usage : String :=
  "usage: straytouch [-h] [--config CONFIG] [--tuning-log TUNING_LOG] [--log-level LOG_LEVEL] "
    ++ "gesture"

def report (output : LogOutput) (outcome : Except Fault Outcome) : IO UInt32 := do
  match outcome with
  | .ok outcome =>
    for line in output.console outcome.records do
      IO.eprintln line
    for line in outcome.printed do
      IO.println line
    return outcome.exitCode.toUInt32
  | .error f =>
    IO.eprintln f.message
    return 1

def runFiles (i : Invocation) (output : LogOutput) : IO UInt32 := do
  let configText ← if i.config.isEmpty then pure (.ok "") else readText i.config
  let gestureText ← readText (i.gesture.getD "")
  match i.prepare configText gestureText with
  | (.error f, records) => report output (Outcome.ofFault records f)
  | (.ok plan, records) =>
    let opened ← if i.tuningLog.isEmpty then pure (.error (.fileMissing "")) else
      openToAppend i.tuningLog
    match TuningLog.opening i.tuningLog (opened.map fun _ => .opened []) with
    | .error f => report output (Outcome.ofFault records f)
    | .ok (log, warnings) =>
      let (outcome, lines) := Invocation.finish (records ++ warnings) plan log
      if let .ok file := opened then
        for line in lines do
          file.putStrLn line
      report output outcome

def call (arguments : List String) : IO UInt32 := do
  match Usage.ofArguments arguments with
  | .refused =>
    IO.eprintln usage
    return 2
  | .help =>
    IO.println usage
    return 0
  | .run i =>
    match LogOutput.ofArguments ⟨[], []⟩ [i.logLevel] with
    | .error f =>
      IO.eprintln f.message
      return 1
    | .ok output => runFiles i output

end StrayTouch

def main (arguments : List String) : IO UInt32 :=
  StrayTouch.call arguments
