import StrayTouch.Disk.Steps

/-!
Files and folders by their steps from the root. A path leads from the root or from the folder that
is worked in to a file, a folder or a device, or to a name that is free. Folders are there because
they are listed or because something is inside them.
-/
namespace StrayTouch

inductive Device where
  | null
  /-- It takes nothing. -/
  | full
  /-- It is not connected. -/
  | terminal
  deriving DecidableEq

inductive Entry where
  | folder
  /-- A folder in which nothing can be created. -/
  | sealed
  | file (text : String)
  | device (d : Device)
  /-- Another place, given by its steps from the root. -/
  | link (target : List String)
  deriving DecidableEq

inductive Place where
  | taken (steps : List String) (e : Entry)
  /-- A name that is not taken, in a folder that exists. -/
  | free (steps : List String)
  | missing
  | notFolder
  | tooLong

structure Disk where
  home : List String
  entries : List (List String × Entry)

namespace Disk

/-- What stands at the end of these steps from the root, a link being what it is. -/
def entryAt (d : Disk) (here : List String) : Option Entry :=
  match d.entries.find? (·.1 == here) with
  | some e => some e.2
  | none =>
    if here.isEmpty || d.entries.any fun e => here.isPrefixOf e.1 then some .folder else none

def placeAt (d : Disk) (here : List String) : Place :=
  match d.entryAt here with
  | some (.link target) => .taken target ((d.entryAt target).getD .folder)
  | some e => .taken here e
  | none => if d.entryAt here.dropLast == some .sealed then .missing else .free here

/-- One step further from a folder. Where nothing can be created no name is too long. -/
def stepInside (d : Disk) (here : List String) (e : Entry) (step : String) : Place :=
  if staysPut step then .taken here e
  else if step == ".." then d.placeAt here.dropLast
  else if stepLimit < step.utf8ByteSize && e != .sealed then .tooLong
  else d.placeAt (here ++ [step])

def stepFrom (d : Disk) (p : Place) (step : String) : Place :=
  match p with
  | .taken here .folder => d.stepInside here .folder step
  | .taken here .sealed => d.stepInside here .sealed step
  | .taken _ _ => .notFolder
  | .free _ => .missing
  | p => p

def walk (d : Disk) (path : String) : Place :=
  if path.isEmpty then .missing
  else (steps path).foldl d.stepFrom (.taken (if isAbsolute path then [] else d.home) .folder)

def isFolder (d : Disk) (path : String) : Bool :=
  match d.walk path with
  | .taken _ .folder => true
  | .taken _ .sealed => true
  | _ => false

def isTaken (d : Disk) (path : String) : Bool :=
  match checkPath path, d.walk path with
  | .ok (), .taken _ _ => true
  | _, _ => false

def refusal (path : String) : Place → Fault
  | .taken _ .folder => .fileIsDirectory path
  | .taken _ .sealed => .fileIsDirectory path
  | .taken _ (.device .terminal) => .deviceMissing path
  | .taken _ _ => .notADirectory path
  | .free _ => .fileMissing path
  | .missing => .fileMissing path
  | .notFolder => .notADirectory path
  | .tooLong => .nameTooLong path

def read (d : Disk) (path : String) : Except Fault String := do
  checkPath path
  match d.walk path with
  | .taken _ (.file text) => .ok text
  | .taken _ (.device .null) => .ok ""
  | .taken _ (.device .full) => .ok ""
  | place => .error (refusal path place)

def writable (path : String) : Place → Except Fault (List String)
  | .taken here (.file _) => .ok here
  | .taken here (.device .null) => .ok here
  | .taken here (.device .full) => .ok here
  | .free here => .ok here
  | place => .error (refusal path place)

/-- The steps of the file that is opened for writing at a path. A name with a slash after it is
that of a folder, whether there is one or not. -/
def target (d : Disk) (path : String) : Except Fault (List String) := do
  checkPath path
  let (way, name) := splitPath (closedPath path)
  if path.endsWith "/" && !isDotted name then
    .error (refusal path (d.walk (if way.isEmpty then "." else way)))
  else writable path (d.walk path)

def settledTarget (d : Disk) (path : String) : Except Fault (List String) := do
  checkPath path
  let here := settledSteps ((if isAbsolute path then [] else d.home) ++ steps path)
  writable (settledPath path here) (here.foldl d.stepFrom (.taken [] .folder))

def append (d : Disk) (here : List String) (text : String) : Disk :=
  match d.entryAt here with
  | some (.file before) =>
    { d with entries := d.entries.map fun e =>
        if e.1 == here then (here, .file (before ++ text)) else e }
  | some _ => d
  | none => { d with entries := d.entries ++ [(here, .file text)] }

def makeFolder (d : Disk) (path : String) : Except Fault Disk := do
  checkPath path
  match d.walk (closedPath path) with
  | .free here => .ok { d with entries := d.entries ++ [(here, .folder)] }
  | .taken _ _ => .error (.fileExists path)
  | place => .error (refusal path place)

/-- The disk with a folder and those on the way to it, each of which is made unless it is there.
Each way is shorter than the last, so that `limit` need not be greater than the path is long. -/
def makeFolders (d : Disk) (path : String) : Nat → Except Fault Disk
  | 0 => .ok d
  | limit + 1 => do
    let (way, name) := splitPath (closedPath path)
    let onWay := !way.isEmpty && !name.isEmpty && !d.isTaken way
    let d ←
      if onWay then
        match makeFolders d way limit with
        | .error (.fileExists _) => .ok d
        | result => result
      else .ok d
    if onWay && name == "." then .ok d
    else
      match d.makeFolder path with
      | .error f => if f.isOfFiles && d.isFolder path then .ok d else .error f
      | made => made

end Disk

end StrayTouch
