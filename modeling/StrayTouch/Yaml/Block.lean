import StrayTouch.Yaml.Quoted

/-!
Scalars in blocks: the lines below their mark that are indented deeply enough. The mark says
whether lines are folded; a sign after it says what becomes of the breaks at the end, and a digit
how much deeper the block is indented, which else its first line shows.
-/
namespace StrayTouch.Yaml

inductive Chomping where
  | strip
  | clip
  | keep

structure BlockHeader where
  chomping : Chomping
  increment? : Option Nat

def chompingSign (p : Cursor) : Option Chomping × Cursor :=
  match p.char? with
  | some '+' => (some .keep, p.next)
  | some '-' => (some .strip, p.next)
  | _ => (none, p)

def incrementDigit (p : Cursor) : Except Fault (Option Nat × Cursor) :=
  match p.char? with
  | some c =>
    if c == '0' then malformed
    else if c.isDigit then .ok (some (c.toNat - 48), p.next)
    else .ok (none, p)
  | none => .ok (none, p)

def blockHeader (p : Cursor) : Except Fault (BlockHeader × Cursor) := do
  let (early, p) := chompingSign p
  let (increment?, p) ← incrementDigit p
  let (late, p) := if early.isNone && increment?.isSome then chompingSign p else (none, p)
  if p.atBlank then
    .ok (⟨(early.or late).getD .clip, increment?⟩, ← p.ignoredLine)
  else malformed

/-- The blank lines in front of a block: their breaks, the latest first, the greatest column that
blanks reach, and the place after them. -/
def blockIndentation (breaks : List Char) (greatest : Nat) (p : Cursor) :
    List Char → List Char × Nat × Cursor
  | [] => (breaks, greatest, p)
  | c :: rest =>
    if isBlank c then blockIndentation breaks (max greatest p.next.column) p.next rest
    else if isBreak c then blockIndentation (keptBreak c :: breaks) greatest p.next rest
    else (breaks, greatest, p)

/-- The breaks of blank lines in a block of this indentation, the latest first, and the place
after them and the indentation of the next line. -/
def blockBreaks (indent : Nat) (breaks : List Char) (p : Cursor) :
    List Char → List Char × Cursor
  | [] => (breaks, p)
  | c :: rest =>
    if isBlank c && p.column < indent then blockBreaks indent breaks p.next rest
    else if isBreak c then blockBreaks indent (keptBreak c :: breaks) p.next rest
    else (breaks, p)

/-- The content of a block, the latest character first: its text without the last line break,
that break if there is one, the further breaks, and the place after them. -/
structure BlockContent where
  text : List Char
  lastBreak : List Char
  further : List Char
  place : Cursor

def atBlockLine (indent : Nat) (p : Cursor) : Bool :=
  p.column == indent && !p.rest.isEmpty

/-- What stands between two lines of a block, the latest character first. Lines that begin with a
blank are not folded. -/
def blockJoint (folding : Bool) (c : BlockContent) : List Char :=
  if folding && c.lastBreak == ['\n'] && !c.place.char?.any isTabOrBlank then
    if c.further.isEmpty then [' '] else []
  else c.lastBreak

def blockLines (folding : Bool) (indent : Nat) (c : BlockContent) : BlockContent :=
  let p := c.place
  if atBlockLine indent p then
    let line := p.takeWhile (!isBreak ·)
    let ended := p.advance line.length
    let (further, after) := blockBreaks indent [] ended.next ended.rest.tail
    let grown : BlockContent :=
      ⟨line.reverse ++ c.further ++ c.text, (ended.char?.map keptBreak).toList, further, after⟩
    if atBlockLine indent after then
      let joint := blockJoint (folding && !p.char?.any isTabOrBlank) grown
      if _h : after.left < p.left then
        blockLines folding indent { grown with text := joint ++ grown.text }
      else grown
    else grown
  else c
termination_by c.place.left

/-- The text of a block whose mark is at hand, and the place after it. The lines of the block are
indented to the column `least` at least. -/
def readBlock (folding : Bool) (least : Nat) (p : Cursor) :
    Except Fault (List Char × Cursor) := do
  let (header, p) ← blockHeader p.next
  let least := max least 1
  let (indent, breaks, place) :=
    match header.increment? with
    | some increment =>
      let indent := least + increment - 1
      (indent, blockBreaks indent [] p p.rest)
    | none =>
      let (breaks, greatest, place) := blockIndentation [] 0 p p.rest
      (max least greatest, breaks, place)
  let c := blockLines folding indent ⟨[], [], breaks, place⟩
  let text :=
    match header.chomping with
    | .strip => c.text
    | .clip => c.lastBreak ++ c.text
    | .keep => c.further ++ c.lastBreak ++ c.text
  .ok (text.reverse, c.place)

end StrayTouch.Yaml
