import StrayTouch.Yaml.Graph
import StrayTouch.Yaml.Quoted

/-!
Taking over other mappings. A mapping with the mark for merging as a key takes over the entries of
the mapping under it, or of several mappings in a list, of which the first counts most; its own
entries count more. What is taken over comes first, and is itself rid of such marks before.
-/
namespace StrayTouch.Yaml.Graph

def isMerge (g : Graph) (e : Nat × Nat) : Bool :=
  g.tag e.1 == .merge

def keyAsText (g : Graph) (e : Nat × Nat) : Graph :=
  if g.tag e.1 == .default then g.setTag e.1 .text else g

/-- What one mapping or a list of them give to be taken over, once each is rid of its marks. -/
def takenOver (flatten : Graph → Nat → Except Fault Graph) (g : Graph) (id : Nat) :
    Except Fault (Graph × List (Nat × Nat)) :=
  match g.content id with
  | .map _ => do
    let g ← flatten g id
    .ok (g, g.entries id)
  | .list items =>
    items.foldlM (fun (s : Graph × List (Nat × Nat)) item =>
      match s.1.content item with
      | .map _ => do
        let g ← flatten s.1 item
        .ok (g, g.entries item ++ s.2)
      | _ => malformed) (g, [])
  | .scalar _ => malformed

/-- The graph in which a mapping has no marks for merging from an index on, and has the entries
`taken` and those of the marks in front of its own. Each mark is removed before it is followed, so
that at most as many are followed as there are in the graph. -/
def flattenFrom (g : Graph) (id index : Nat) (taken : List (Nat × Nat)) :
    Nat → Except Fault Graph
  | 0 => .error .endless
  | limit + 1 =>
    let entries := g.entries id
    let own := (entries.drop index).takeWhile (!g.isMerge ·)
    let g := own.foldl keyAsText g
    match entries.drop (index + own.length) with
    | [] => .ok (if taken.isEmpty then g else g.setContent id (.map (taken ++ entries)))
    | mark :: rest => do
      let g := g.setContent id (.map (entries.take (index + own.length) ++ rest))
      let (g, more) ←
        takenOver (fun g id => flattenFrom g id 0 [] limit) g mark.2
      flattenFrom g id (index + own.length) (taken ++ more) limit

def markCount (g : Graph) : Nat :=
  g.foldl (fun n node =>
    match node.content with
    | .map entries => n + entries.countP g.isMerge
    | _ => n) 0

def flatten (g : Graph) (id : Nat) : Except Fault Graph :=
  if (g.entries id).any fun e => g.isMerge e || g.tag e.1 == .default then
    g.flattenFrom id 0 [] (g.markCount + 1)
  else .ok g

end StrayTouch.Yaml.Graph
