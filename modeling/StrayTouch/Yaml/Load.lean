import StrayTouch.Document.Members
import StrayTouch.Yaml.Merge
import StrayTouch.Yaml.Node

/-!
The value that a text in YAML stands for. Nodes are built in the order in which they are met, all
members of a collection before the members of those, and the first one that nothing can be made of
decides how the document is refused. A node that stands in several places is built once.
-/
namespace StrayTouch.Yaml

/-- What has been made of a node: a scalar, or a collection of nodes by their numbers. -/
inductive Built where
  | scalar (a : Atom)
  | list (items : List Nat)
  | pairs (items : List (Nat × Nat))
  | set (members : List Name)
  | map (entries : List (Name × Nat))

/-- What has been built, and the collections whose members are still to be built, the latest
first. -/
structure Building where
  graph : Graph
  built : Array (Option Built)
  waiting : List Nat

namespace Building

def start (g : Graph) : Building :=
  ⟨g, Array.replicate g.size none, []⟩

def put (b : Building) (id : Nat) (x : Built) : Building :=
  { b with built := b.built.setIfInBounds id (some x) }

def get? (b : Building) (id : Nat) : Option Built :=
  (b.built[id]?).join

/-- A collection is begun: it is empty until its turn comes. -/
def await (b : Building) (id : Nat) (empty : Built) : Building :=
  { b.put id empty with waiting := id :: b.waiting }

def meet (b : Building) (id : Nat) : Except Fault Building :=
  match b.get? id with
  | some _ => .ok b
  | none =>
    match b.graph.tag id with
    | .list => .ok (b.await id (.list []))
    | .orderedMap => .ok (b.await id (.pairs []))
    | .pairs => .ok (b.await id (.pairs []))
    | .map => .ok (b.await id (.map []))
    | .set => .ok (b.await id (.set []))
    | _ => do .ok (b.put id (.scalar (← b.graph.scalar id)))

def meetKey (b : Building) (id : Nat) : Except Fault (Building × Name) := do
  let b ← b.meet id
  match b.get? id with
  | some (.scalar a) => .ok (b, .atom a)
  | _ => malformed

/-- The entries of a mapping are met, each key before its value. Of two entries under the same key
the later one counts, at the place of the earlier one. -/
def meetEntries (b : Building) (id : Nat) : Except Fault (Building × List (Name × Nat)) := do
  let graph ← b.graph.flatten id
  match graph.content id with
  | .map entries =>
    entries.foldlM (fun (s : Building × List (Name × Nat)) e => do
      let (b, key) ← s.1.meetKey e.1
      let b ← b.meet e.2
      .ok (b, Keyed.put s.2 key e.2)) ({ b with graph }, [])
  | _ => malformed

def meetPairs (b : Building) (items : List Nat) :
    Except Fault (Building × List (Nat × Nat)) := do
  let (b, pairs) ← items.foldlM (fun (s : Building × List (Nat × Nat)) item =>
    match s.1.graph.content item with
    | .map [e] => do
      let b ← s.1.meet e.1
      let b ← b.meet e.2
      .ok (b, e :: s.2)
    | _ => malformed) (b, [])
  .ok (b, pairs.reverse)

def complete (b : Building) (id : Nat) : Except Fault Building :=
  match b.graph.tag id, b.graph.content id with
  | .map, .map _ => do
    let (b, entries) ← b.meetEntries id
    .ok (b.put id (.map entries))
  | .set, .map _ => do
    let (b, entries) ← b.meetEntries id
    .ok (b.put id (.set (membersInOrder (Keyed.keys entries))))
  | .list, .list items => do
    let b ← items.foldlM meet b
    .ok (b.put id (.list items))
  | .orderedMap, .list items => do
    let (b, pairs) ← b.meetPairs items
    .ok (b.put id (.pairs pairs))
  | .pairs, .list items => do
    let (b, pairs) ← b.meetPairs items
    .ok (b.put id (.pairs pairs))
  | _, _ => malformed

/-- Every collection gets its turn, in the order in which they were met. Each waits once, so that
there are no more turns than nodes. -/
def run (b : Building) : Nat → Except Fault Building
  | 0 => .ok b
  | turns + 1 => do
    let round := b.waiting.reverse
    if round.isEmpty then .ok b
    else (← round.foldlM complete { b with waiting := [] }).run turns

end Building

def Built.value? (valueOf? : Nat → Option Value) : Built → Option Value
  | .scalar a => some (.atom a)
  | .set members => some (.set members)
  | .list items => (items.mapM valueOf?).map .list
  | .pairs items =>
    (items.mapM fun (e : Nat × Nat) => do
      some (Value.tuple [← valueOf? e.1, ← valueOf? e.2])).map .list
  | .map entries =>
    (entries.mapM fun (e : Name × Nat) => do some (e.1, ← valueOf? e.2)).map .map

/-- The values of nodes that have one without going through a node inside itself, found in so many
rounds. -/
def finiteValues (built : Array (Option Built)) (known : Array (Option Value)) :
    Nat → Array (Option Value)
  | 0 => known
  | rounds + 1 =>
    let (found, grew) := (List.range built.size).reverse.foldl
      (fun (s : Array (Option Value) × Bool) id =>
        match (s.1[id]?).join, (built[id]?).join with
        | none, some x =>
          match x.value? fun child => (s.1[child]?).join with
          | some v => (s.1.setIfInBounds id (some v), true)
          | none => s
        | _, _ => s) (known, false)
    if grew then finiteValues built found rounds else found

/-- The value of a node in which a node inside itself is marked by its number. The nodes around it
are in `around`; no more of them are gone into than there are. -/
def knottedValue (built : Array (Option Built)) (finite : Array (Option Value))
    (around : List Nat) (id : Nat) : Nat → Value
  | 0 => .again id
  | depth + 1 =>
    match (finite[id]?).join, (built[id]?).join with
    | some v, _ => v
    | none, some x =>
      if around.contains id then .again id
      else
        .knot id ((x.value? fun child =>
          some (knottedValue built finite (id :: around) child depth)).getD .null)
    | none, none => .null

def Graph.value (g : Graph) (root : Nat) : Except Fault Value := do
  let b ← (Building.start g).meet root
  let b ← b.run g.size
  let finite := finiteValues b.built (Array.replicate g.size none) g.size
  .ok (knottedValue b.built finite [] root (g.size + 1))

def load (text : String) : Except Fault Value := do
  match ← Graph.ofTokens (← Tokens.ofText text) with
  | none => .ok .null
  | some (g, root) => g.value root

end StrayTouch.Yaml
