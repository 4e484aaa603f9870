import StrayTouch.Record
import StrayTouch.Tuning.Report

/-!
The tuning log. Every report is counted and summarised in the program's log; where a file is
open, it also becomes a line of that file. A file that cannot be opened or written costs a
warning and nothing else.
-/
namespace StrayTouch

/-- An open file: its lines so far, what goes wrong with the writing of each further one, and what
will go wrong with its closing. -/
structure LineFile where
  lines : List String
  fault? : Nat → Option Fault
  closing? : Option Fault

namespace LineFile

def opened (lines : List String) : LineFile :=
  ⟨lines, fun _ => none, none⟩

def full : LineFile :=
  ⟨[], fun _ => some .noSpace, none⟩

/-- The file once it has been closed under its writer's hands. -/
def broken (f : LineFile) : LineFile :=
  ⟨f.lines, fun _ => some .fileClosed, f.closing?⟩

/-- Writing a line. The writes still to come are numbered anew. What the file system refuses is
tried again when the file is closed. -/
def write (f : LineFile) (line : String) : Except Fault Unit × LineFile :=
  let later := fun n => f.fault? (n + 1)
  match f.fault? 0 with
  | some fault =>
    (.error fault, ⟨f.lines, later, if fault.isOfFiles then some fault else f.closing?⟩)
  | none => (.ok (), ⟨f.lines ++ [line], later, f.closing?⟩)

end LineFile

structure TuningLog where
  count : Nat
  file : Option LineFile
  kept : List String

namespace TuningLog

def plain : TuningLog :=
  ⟨0, none, []⟩

def appending (lines : List String) : TuningLog :=
  ⟨0, some (.opened lines), []⟩

def lines (t : TuningLog) : List String :=
  match t.file with
  | some f => f.lines
  | none => t.kept

def openWarning (path : String) (f : Fault) : Record :=
  .warning .tuning ("Could not open tuning log " ++ path ++ ": " ++ f.message)

/-- The log of a file that has been opened or not. Without a path there is no file, and a file that
the file system does not open is done without; a path that is none at all is a fault. -/
def opening (path : String) (opened : Except Fault LineFile) :
    Except Fault (TuningLog × List Record) :=
  if path.isEmpty then .ok (plain, [])
  else
    match opened with
    | .ok file => .ok (⟨0, some file, []⟩, [])
    | .error f => if f.isOfFiles then .ok (plain, [openWarning path f]) else .error f

/-- Whether a write that fails costs a warning only: one that the file system refuses, or one to a
file that is closed. -/
def forgives (f : Fault) : Bool :=
  f.isOfFiles || f.kind == .value

/-- Writing the line of a report, which is made only where a file is open. -/
def writeLine (t : TuningLog) (r : Report) : Except Fault Unit × TuningLog × List Record :=
  match t.file with
  | none => (.ok (), t, [])
  | some f =>
    match r.line with
    | .error fault => (.error fault, t, [])
    | .ok line =>
      match f.write line with
      | (.ok (), after) => (.ok (), ⟨t.count, some after, t.kept⟩, [])
      | (.error fault, after) =>
        if forgives fault then
          (.ok (), ⟨t.count, some after, t.kept⟩,
            [.warning .tuning ("Could not write tuning log entry: " ++ fault.message)])
        else (.error fault, ⟨t.count, some after, t.kept⟩, [])

/-- A report is counted, summarised and written. One whose scores are no numbers is refused after
it has been counted, one whose failed classifiers have no names after its summary, and one whose
contacts cannot be named when its line is due. -/
def log (t : TuningLog) (r : Report) : Except Fault Unit × TuningLog × List Record :=
  let counted : TuningLog := ⟨t.count + 1, t.file, t.kept⟩
  match r.shownScores with
  | .error f => (.error f, counted, [])
  | .ok scores =>
    let summary : Record := ⟨Level.info, .tuning, r.summary scores, none⟩
    match r.failedList with
    | .error f => (.error f, counted, [summary])
    | .ok names =>
      let failures :=
        if r.failed.isEmpty then []
        else [Record.warning .tuning ("Classifiers failed and were substituted: " ++ names)]
      let (result, after, records) := counted.writeLine r
      (result, after, summary :: failures ++ records)

def close (t : TuningLog) : TuningLog :=
  ⟨t.count, none, t.lines⟩

def closingFault? (t : TuningLog) : Option Fault :=
  t.file.bind LineFile.closing?

/-- The file is closed but still written to. -/
def breakFile (t : TuningLog) : Except Fault TuningLog :=
  match t.file with
  | some f => .ok ⟨t.count, some f.broken, t.kept⟩
  | none => .error (.attributeMissing "NoneType" "close")

end TuningLog

end StrayTouch
