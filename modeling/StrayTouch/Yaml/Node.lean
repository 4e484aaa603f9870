import StrayTouch.Yaml.Graph
import StrayTouch.Yaml.Token

/-!
The nodes of a document, read from its tokens. A node may be given a name, and an alias stands for
the node of that name; it may also be given a tag. Nodes are numbered as they begin, so that an
alias inside one may stand for it.
-/
namespace StrayTouch.Yaml

/-- What is still to be read, the nodes that have begun, how many of them are still open, the names
that they have been given, and what the handles of tags stand for. -/
structure Pending where
  tokens : Tokens
  nodes : Graph
  depth : Nat
  names : List (String × Nat)
  handles : List (String × String)

namespace Pending

def ownHandles : List (String × String) :=
  [("!", "!"), ("!!", Tag.family)]

def start (ts : Tokens) : Pending :=
  ⟨ts, #[], 0, [], ownHandles⟩

def ahead (p : Pending) : List Token :=
  p.tokens.list

def after (p : Pending) (rest : List Token) : Pending :=
  { p with tokens := ⟨rest, p.tokens.fault?⟩ }

def refuse {β : Type} (p : Pending) : Except Fault β :=
  match p.ahead, p.tokens.fault? with
  | [], some f => .error f
  | _, _ => malformed

def look (p : Pending) : Except Fault Unit :=
  match p.ahead, p.tokens.fault? with
  | [], some f => .error f
  | _, _ => .ok ()

def isAt (p : Pending) (ts : List Token) : Bool :=
  p.ahead.head?.any ts.contains

def isDone (p : Pending) : Bool :=
  p.ahead.isEmpty

end Pending

abbrev Reader (β : Type) := Pending → Except Fault (β × Pending)

structure Properties where
  name? : Option String
  tag? : Option WrittenTag

def takeProperties : Reader Properties := fun p =>
  match p.ahead with
  | .anchor name :: .tag t :: rest => .ok (⟨some name, some t⟩, p.after rest)
  | .anchor name :: rest => .ok (⟨some name, none⟩, p.after rest)
  | .tag t :: .anchor name :: rest => .ok (⟨some name, some t⟩, p.after rest)
  | .tag t :: rest => do
    (p.after rest).look
    .ok (⟨none, some t⟩, p.after rest)
  | _ => .ok (⟨none, none⟩, p)

def tagName (p : Pending) (t : WrittenTag) : Except Fault String :=
  match t.handle? with
  | none => .ok t.rest
  | some handle =>
    match p.handles.find? (·.1 == handle) with
    | some e => .ok (e.2 ++ t.rest)
    | none => malformed

/-- The tag that is written in front of a node. A mark alone says no more than no tag at all,
apart from asking what the form of a scalar implies. -/
inductive GivenTag where
  | none
  | mark
  | named (tag : Tag)

def givenTag (p : Pending) (properties : Properties) : Except Fault GivenTag :=
  match properties.tag? with
  | none => .ok .none
  | some t => do
    let name ← tagName p t
    .ok (if name == "!" then .mark else .named (.ofName name))

def GivenTag.resolve (g : GivenTag) (standard implied : Tag) : Tag :=
  match g with
  | .none => standard
  | .mark => implied
  | .named tag => tag

def begin (name? : Option String) (n : Node) : Reader Nat := fun p =>
  let id := p.nodes.size
  match name? with
  | none => .ok (id, { p with nodes := p.nodes.push n })
  | some name =>
    if p.names.any (·.1 == name) then malformed
    else .ok (id, { p with nodes := p.nodes.push n, names := (name, id) :: p.names })

/-- How many collections can be inside each other. -/
def nestingLimit : Nat := 490

def enter (name? : Option String) (n : Node) : Reader Nat := fun p =>
  if p.depth < nestingLimit then begin name? n { p with depth := p.depth + 1 }
  else .error .endless

def finish (id : Nat) (c : Content) (p : Pending) : Nat × Pending :=
  (id, { p with nodes := p.nodes.setContent id c, depth := p.depth - 1 })

def nothing : Reader Nat :=
  begin none ⟨.null, .scalar []⟩

def empty (properties : Properties) (given : GivenTag) : Reader Nat := fun p => do
  p.look
  if properties.name?.isSome || properties.tag?.isSome then
    begin properties.name? ⟨given.resolve .null .null, .scalar []⟩ p
  else malformed

/-- What follows the comma between two members in brackets; none stands before the first. -/
def separated (first : Bool) (p : Pending) : Except Fault Pending :=
  if first then .ok p
  else
    match p.ahead with
    | .comma :: rest => .ok (p.after rest)
    | _ => p.refuse

mutual

/-- A node, by its number. Indented collections are no nodes inside brackets, and a list that is
not indented any further is a node only in a mapping. Each reader spends one unit of `fuel` for
each reader it calls, at most two for each token. -/
def read (fuel : Nat) (block dashes : Bool) : Reader Nat := fun p =>
  match fuel with
  | 0 => malformed
  | fuel + 1 =>
    match p.ahead with
    | .alias name :: rest =>
      match p.names.find? (·.1 == name) with
      | some e => .ok (e.2, p.after rest)
      | none => malformed
    | _ => do
      let (properties, p) ← takeProperties p
      let given ← givenTag p properties
      let name? := properties.name?
      let list : Node := ⟨given.resolve .list .list, .list []⟩
      let map : Node := ⟨given.resolve .map .map, .map []⟩
      match p.ahead with
      | .plain text :: rest =>
        let implied := Tag.ofForm text
        begin name? ⟨given.resolve implied implied, .scalar (codes text)⟩ (p.after rest)
      | .quoted points :: rest =>
        let tag := given.resolve .text (.ofForm (chars points))
        begin name? ⟨tag, .scalar points⟩ (p.after rest)
      | .openList :: rest =>
        let (id, p) ← enter name? list (p.after rest)
        let (items, p) ← flowItems fuel true p
        .ok (finish id (.list items) p)
      | .openMap :: rest =>
        let (id, p) ← enter name? map (p.after rest)
        let (entries, p) ← flowEntries fuel true p
        .ok (finish id (.map entries) p)
      | .listStart :: rest =>
        if block then
          let (id, p) ← enter name? list (p.after rest)
          let (items, p) ← blockItems fuel p
          .ok (finish id (.list items) p)
        else empty properties given p
      | .mapStart :: rest =>
        if block then
          let (id, p) ← enter name? map (p.after rest)
          let (entries, p) ← blockEntries fuel p
          .ok (finish id (.map entries) p)
        else empty properties given p
      | .item :: _ =>
        if dashes then
          let (id, p) ← enter name? list p
          let (items, p) ← dashedItems fuel p
          .ok (finish id (.list items) p)
        else empty properties given p
      | _ => empty properties given p

def readOr (fuel : Nat) (block dashes : Bool) (followers : List Token) : Reader Nat := fun p =>
  match fuel with
  | 0 => malformed
  | fuel + 1 => if p.isAt followers then nothing p else read fuel block dashes p

def blockItems (fuel : Nat) : Reader (List Nat) := fun p =>
  match fuel with
  | 0 => malformed
  | fuel + 1 =>
    match p.ahead with
    | .item :: rest => do
      let (n, p) ← readOr fuel true false [.item, .blockEnd] (p.after rest)
      let (more, p) ← blockItems fuel p
      .ok (n :: more, p)
    | .blockEnd :: rest => .ok ([], p.after rest)
    | _ => p.refuse

def dashedItems (fuel : Nat) : Reader (List Nat) := fun p =>
  match fuel with
  | 0 => malformed
  | fuel + 1 =>
    match p.ahead with
    | .item :: rest => do
      let (n, p) ← readOr fuel true false [.item, .key, .value, .blockEnd] (p.after rest)
      let (more, p) ← dashedItems fuel p
      .ok (n :: more, p)
    | _ => .ok ([], p)

def blockEntries (fuel : Nat) : Reader (List (Nat × Nat)) := fun p =>
  match fuel with
  | 0 => malformed
  | fuel + 1 =>
    match p.ahead with
    | .blockEnd :: rest => .ok ([], p.after rest)
    | .key :: rest => do
      let (k, p) ← readOr fuel true true [.key, .value, .blockEnd] (p.after rest)
      let (v, p) ← blockValue fuel p
      let (more, p) ← blockEntries fuel p
      .ok ((k, v) :: more, p)
    | _ => p.refuse

def blockValue (fuel : Nat) : Reader Nat := fun p =>
  match fuel with
  | 0 => malformed
  | fuel + 1 =>
    match p.ahead with
    | .value :: rest => readOr fuel true true [.key, .value, .blockEnd] (p.after rest)
    | _ => nothing p

/-- The items of a list in brackets. An item may be a key with its value, which is a mapping of
one entry. -/
def flowItems (fuel : Nat) (first : Bool) : Reader (List Nat) := fun p =>
  match fuel with
  | 0 => malformed
  | fuel + 1 => do
    match p.ahead with
    | .closeList :: rest => .ok ([], p.after rest)
    | _ =>
      let p ← separated first p
      match p.ahead with
      | .closeList :: rest => .ok ([], p.after rest)
      | .key :: rest =>
        let (id, p) ← enter none ⟨.map, .map []⟩ (p.after rest)
        let (e, p) ← flowEntry fuel .closeList p
        let (n, p) := finish id (.map [e]) p
        let (more, p) ← flowItems fuel false p
        .ok (n :: more, p)
      | _ =>
        let (n, p) ← read fuel false false p
        let (more, p) ← flowItems fuel false p
        .ok (n :: more, p)

/-- The entries of a mapping in brackets. A node without a value is a key to nothing. -/
def flowEntries (fuel : Nat) (first : Bool) : Reader (List (Nat × Nat)) := fun p =>
  match fuel with
  | 0 => malformed
  | fuel + 1 => do
    match p.ahead with
    | .closeMap :: rest => .ok ([], p.after rest)
    | _ =>
      let p ← separated first p
      match p.ahead with
      | .closeMap :: rest => .ok ([], p.after rest)
      | .key :: rest =>
        let (e, p) ← flowEntry fuel .closeMap (p.after rest)
        let (more, p) ← flowEntries fuel false p
        .ok (e :: more, p)
      | _ =>
        let (k, p) ← read fuel false false p
        let (v, p) ← nothing p
        let (more, p) ← flowEntries fuel false p
        .ok ((k, v) :: more, p)

def flowEntry (fuel : Nat) (close : Token) : Reader (Nat × Nat) := fun p =>
  match fuel with
  | 0 => malformed
  | fuel + 1 => do
    let (k, p) ← readOr fuel false false [.value, .comma, close] p
    match p.ahead with
    | .value :: rest =>
      let (v, p) ← readOr fuel false false [.comma, close] (p.after rest)
      .ok ((k, v), p)
    | _ =>
      let (v, p) ← nothing p
      .ok ((k, v), p)

end

/-- Directives in front of a document. The version is given once at most, and so is what a handle
stands for. -/
def takeDirectives (versioned : Bool) (handles : List (String × String)) (p : Pending) :
    List Token → Except Fault Pending
  | .directive (.version major) :: rest =>
    if versioned || major != 1 then malformed
    else takeDirectives true handles (p.after rest) rest
  | .directive (.handle handle name) :: rest =>
    if handles.any (·.1 == handle) then malformed
    else takeDirectives versioned ((handle, name) :: handles) (p.after rest) rest
  | .directive .other :: rest => takeDirectives versioned handles (p.after rest) rest
  | _ => .ok { p with handles := handles ++ Pending.ownHandles }

def dropEnds (ts : List Token) : List Token :=
  ts.dropWhile (· == .documentEnd)

def isDirective : Token → Bool
  | .directive _ => true
  | _ => false

def readMarked (fuel : Nat) : Reader Nat := fun p => do
  let p ← takeDirectives false [] p p.ahead
  match p.ahead with
  | .documentStart :: rest =>
    let p := p.after rest
    p.look
    if p.isDone || p.isAt [.documentStart, .documentEnd] || p.ahead.head?.any isDirective then
      nothing p
    else read fuel true false p
  | _ => p.refuse

def endDocument (p : Pending) : Except Fault Unit := do
  let p := p.after (dropEnds p.ahead)
  p.look
  if p.isDone then .ok ()
  else (← takeDirectives false [] p p.ahead).refuse

/-- The nodes of a text and the number of the first, if the text holds a document. It holds one at
most. -/
def Graph.ofTokens (ts : Tokens) : Except Fault (Option (Graph × Nat)) := do
  let p := Pending.start ts
  let fuel := 2 * ts.list.length + 4
  p.look
  if p.isDone then .ok none
  else
    let (root, p) ←
      if p.isAt [.documentStart] || p.ahead.head?.any isDirective then readMarked fuel p
      else read fuel true false p
    endDocument p
    .ok (some (p.nodes, root))

end StrayTouch.Yaml
