import StrayTouch.Fault

/-!
Paths: names with slashes between them, of which two are not names but say where to stay and where
to go up. A path and each of its names have a greatest length in bytes.
-/
namespace StrayTouch.Disk

def steps (path : String) : List String :=
  path.splitOn "/"

/-- The greatest number of bytes in a step of a path. -/
def stepLimit : Nat := 255

/-- The number of bytes that a path has to stay below. -/
def pathLimit : Nat := 4096

def checkPath (path : String) : Except Fault Unit :=
  if path.contains '\x00' then .error .nullInPath
  else if pathLimit ≤ path.utf8ByteSize then .error (.nameTooLong path)
  else .ok ()

def isAbsolute (path : String) : Bool :=
  path.startsWith "/"

def staysPut (step : String) : Bool :=
  step == "" || step == "."

def isDotted (step : String) : Bool :=
  staysPut step || step == ".."

/-- A path without the slashes at its end, unless it consists of slashes. -/
def closedPath (path : String) : String :=
  let kept := path.toList.reverse.dropWhile (· == '/')
  if kept.isEmpty then path else String.ofList kept.reverse

def splitPath (path : String) : String × String :=
  let cs := path.toList.reverse
  (closedPath (String.ofList (cs.dropWhile (· != '/')).reverse),
    String.ofList (cs.takeWhile (· != '/')).reverse)

/-- Steps from the root without those that stay or go up, which are worked out without a look at
what is there. -/
def settledSteps (ss : List String) : List String :=
  ss.foldl (fun here step =>
    if staysPut step then here else if step == ".." then here.dropLast else here ++ [step]) []

/-- A settled path. Two slashes at its front are as good as one, and are kept. -/
def settledPath (path : String) (ss : List String) : String :=
  (if path.startsWith "//" && !path.startsWith "///" then "//" else "/") ++ "/".intercalate ss

end StrayTouch.Disk
