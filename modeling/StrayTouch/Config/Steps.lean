import StrayTouch.Config.Basic
import StrayTouch.Gesture.Steps

/-!
Making configurations step by step. The default tables stand in a mapping that all configurations
start from, each configuration has a mapping of its own tables, and any of them could be written to.
A configuration is put together in a copy of the default tables, so that what it puts there is seen
nowhere else.
-/
namespace StrayTouch

/-- Mappings that can be written to, each under its number. -/
abbrev Shelf (α : Type) := List (List (Name × TableSource α))

/-- A configuration whose tables stand in a mapping. -/
structure Config.Placed (α : Type) where
  dpi : α
  rejectThreshold : α
  tiePolicy : TiePolicy
  failurePolicy : FailurePolicy
  place : Nat

variable {α : Type} [Scalar α]

namespace Shelf

/-- The default tables come first. -/
def start : Shelf α :=
  [defaultEvaluators]

def standard : Nat := 0

def entries (n : Nat) : Steps (Shelf α) (List (Name × TableSource α)) := do
  return (← get).getD n []

def lay (entries : List (Name × TableSource α)) : Steps (Shelf α) Nat := do
  let shelf ← get
  set (shelf ++ [entries])
  return shelf.length

def copy (n : Nat) : Steps (Shelf α) Nat := do
  lay (← entries n)

def write (n : Nat) (name : Name) (source : TableSource α) : Steps (Shelf α) Unit :=
  modify fun shelf => shelf.modify n fun m => Keyed.put m name source

def read (n : Nat) (name : Name) (source : TableSource α) : Steps (Shelf α) Unit := do
  let ev ← Steps.of (Settings.readTable name source)
  write n name (.built ev)

end Shelf

namespace Config

/-- A configuration is made from settings. Their tables are written over a copy of the default ones;
then each table is read and put into the mapping of the configuration. -/
def construct (s : Settings α) : Steps (Shelf α) (Placed α) := do
  let scalars ← Steps.of s.readScalars
  let sources ← Steps.of s.readSources
  let draft ← Shelf.copy Shelf.standard
  forM sources fun e => Shelf.write draft e.1 e.2
  let merged ← Shelf.entries draft
  let place ← Shelf.lay []
  forM merged fun e => Shelf.read place e.1 e.2
  return ⟨scalars.dpi, scalars.rejectThreshold, scalars.tiePolicy, scalars.failurePolicy, place⟩

/-- A configuration at another density is made anew, from the settings of this one and a copy of its
tables. -/
def Placed.withDpi (p : Placed α) (dpi : Value) : Steps (Shelf α) (Placed α) := do
  let own ← Shelf.copy p.place
  let tables ← Shelf.entries own
  construct ⟨.value dpi, .number p.rejectThreshold, .text p.tiePolicy.name,
    .text p.failurePolicy.name, .given tables⟩

/-- Configurations are made one after another. One that cannot be made leaves behind what its steps
have written, and the next is made all the same. -/
def constructAll : List (Settings α) → Shelf α → List (Except Fault (Placed α)) × Shelf α
  | [], shelf => ([], shelf)
  | s :: rest, shelf =>
    match (construct s).run shelf with
    | .ok p after =>
      let (others, last) := constructAll rest after
      (.ok p :: others, last)
    | .error f after =>
      let (others, last) := constructAll rest after
      (.error f :: others, last)

end Config

end StrayTouch
