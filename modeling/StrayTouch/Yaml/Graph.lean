import StrayTouch.Yaml.Scalar

/-!
The nodes of a document, known by their numbers. A node may stand in several places and even
inside itself, because an alias stands for the very node that it names.
-/
namespace StrayTouch.Yaml

/-- What a node holds: the code points of a scalar, or the numbers of other nodes. -/
inductive Content where
  | scalar (points : List Nat)
  | list (items : List Nat)
  | map (entries : List (Nat × Nat))

structure Node where
  tag : Tag
  content : Content

abbrev Graph := Array Node

namespace Graph

def node (g : Graph) (id : Nat) : Node :=
  g[id]?.getD ⟨.unknown, .scalar []⟩

def tag (g : Graph) (id : Nat) : Tag :=
  (g.node id).tag

def content (g : Graph) (id : Nat) : Content :=
  (g.node id).content

def entries (g : Graph) (id : Nat) : List (Nat × Nat) :=
  match g.content id with
  | .map entries => entries
  | _ => []

def setTag (g : Graph) (id : Nat) (tag : Tag) : Graph :=
  Array.setIfInBounds g id ⟨tag, g.content id⟩

def setContent (g : Graph) (id : Nat) (content : Content) : Graph :=
  Array.setIfInBounds g id ⟨g.tag id, content⟩

/-- The code points of a node that has to be a scalar. A mapping with a default value stands for
that. At most so many nodes are gone through. -/
def scalarPoints (g : Graph) (id : Nat) : Nat → Except Fault (List Nat)
  | 0 => .error .endless
  | limit + 1 =>
    match g.content id with
    | .scalar points => .ok points
    | .list _ => .error .malformedDocument
    | .map entries =>
      match entries.find? fun e => g.tag e.1 == .default with
      | some e => g.scalarPoints e.2 limit
      | none => .error .malformedDocument

/-- The scalar that a node has to be. A time is read from the node itself. -/
def scalar (g : Graph) (id : Nat) : Except Fault Atom := do
  if g.tag id == .unknown || g.tag id == .merge || g.tag id == .default then
    .error .malformedDocument
  else
    let points ← g.scalarPoints id (g.size + 1)
    match g.tag id, g.content id with
    | .timestamp, .map _ => .error (.textRequired "list")
    | tag, _ => tag.read (id + 1) points

end Graph

end StrayTouch.Yaml
