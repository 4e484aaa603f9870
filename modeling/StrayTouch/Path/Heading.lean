import StrayTouch.Path.Length

/-!
Directions along a path, followed continuously: from one move to the next the direction changes
by no more than half a turn, so that a path to the left does not jump between the two ends of
the circle.
-/
namespace StrayTouch.Path

variable {α : Type} [Scalar α]

def turn : α :=
  Scalar.pi + Scalar.pi

def halfBack : α :=
  Scalar.zero - Scalar.pi

def isSmall (d : α) : Bool :=
  Scalar.lt halfBack d && Scalar.lt d Scalar.pi

/-- A change of direction brought into the half turns either way. A change of exactly half a
turn keeps its sense. -/
def reduced (d : α) : α :=
  let r := Scalar.floorMod (d + Scalar.pi) turn + halfBack
  if Scalar.le r halfBack && Scalar.le halfBack r && Scalar.lt Scalar.zero d then Scalar.pi
  else r

/-- What has to be added to all later directions after a change `d`: nothing where it is small,
and otherwise whole turns. -/
def correction (d : α) : α :=
  if isSmall d then Scalar.zero else reduced d - d

def unwrapFrom (previous shift : α) : List α → List α
  | [] => []
  | a :: rest =>
    let total := shift + correction (a - previous)
    (a + total) :: unwrapFrom a total rest

/-- Directions followed continuously. -/
def unwrap : List α → List α
  | [] => []
  | a :: rest => a :: unwrapFrom a Scalar.zero rest

def rawHeadings (positions : List (α × α)) : List α :=
  (moves positions).map fun step => Scalar.atan2 step.2 step.1

def headings (positions : List (α × α)) : List α :=
  unwrap (rawHeadings positions)

end StrayTouch.Path
