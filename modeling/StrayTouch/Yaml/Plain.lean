import StrayTouch.Yaml.Cursor

/-!
Scalars without quotes. They run over blanks and, where the lines that follow are indented deeply
enough, over line breaks; a mark that means something else ends them.
-/
namespace StrayTouch.Yaml

def isFlowMark (c : Char) : Bool :=
  c == ',' || c == '[' || c == ']' || c == '\x7b' || c == '\x7d'

/-- The characters that no scalar without quotes begins with, unless as a plain dash, question
mark or colon. -/
def isMark (c : Char) : Bool :=
  isFlowMark c || "-?:#&*!|>'\"%@".toList.contains c || c.toNat == 0x60

def beginsPlain (inFlow : Bool) (cs : List Char) : Bool :=
  match cs with
  | [] => false
  | c :: rest =>
    !(isGap c || isMark c)
      || (!atGap rest && (c == '-' || (!inFlow && (c == '?' || c == ':'))))

/-- Whether a scalar without quotes ends before `c`. A colon ends it before a gap, and in a
bracketed collection before the marks that matter there. -/
def endsPlain (inFlow : Bool) (c : Char) (rest : List Char) : Bool :=
  isGap c || (c == ':' && (atGap rest || (inFlow && rest.head?.any isFlowMark)))
    || (inFlow && (c == '?' || isFlowMark c))

def plainRun (inFlow : Bool) (run : List Char) : List Char → List Char
  | [] => run
  | c :: rest => if endsPlain inFlow c rest then run else plainRun inFlow (c :: run) rest

/-- A gap between two runs: what it reads as, the place after it, and whether it has broken the
line. It reads as nothing where the scalar has to end. -/
structure PlainGap where
  read : List Char
  place : Cursor
  broken : Bool

/-- The lines after a line break, up to the first that is not blank: the further breaks, the
latest first, and the place after them. There are no breaks to report before a separator of
documents. -/
def plainLines (breaks : List Char) (p : Cursor) : List Char → Option (List Char) × Cursor
  | [] => (some breaks, p)
  | c :: rest =>
    if isBlank c then plainLines breaks p.next rest
    else if isBreak c then
      if atSeparator rest then (none, p.next)
      else plainLines (keptBreak c :: breaks) p.next rest
    else (some breaks, p)

def plainGap (p : Cursor) : PlainGap :=
  let here := p.skipWhile isBlank
  match here.rest with
  | [] => ⟨p.takeWhile isBlank, here, false⟩
  | c :: rest =>
    if !isBreak c then ⟨p.takeWhile isBlank, here, false⟩
    else if atSeparator rest then ⟨[], here.next, true⟩
    else
      match plainLines [] here.next rest with
      | (none, after) => ⟨[], after, true⟩
      | (some breaks, after) => ⟨folded c breaks.reverse, after, true⟩

def plainEnd (text : List Char) (gap : PlainGap) : List Char × Cursor × Bool :=
  (text.reverse, gap.place, gap.broken)

/-- A scalar without quotes: its text, the place after the scalar and the gap behind it, and
whether that gap has broken the line. `before` is the text so far, the latest first, and `gap`
what stands between it and what comes next. A line that goes on with the scalar stands at column
`least` or beyond, unless in brackets. -/
def plainText (inFlow : Bool) (least : Nat) (before : List Char) (gap : PlainGap) :
    List Char × Cursor × Bool :=
  if gap.place.char? == some '#' then plainEnd before gap
  else
    let run := plainRun inFlow [] gap.place.rest
    let further := plainGap (gap.place.advance run.length)
    let tooShallow := !inFlow && further.place.column < least
    if run.isEmpty then plainEnd before gap
    else
      let text := run ++ (gap.read.reverse ++ before)
      if further.read.isEmpty || tooShallow then plainEnd text further
      else if _h : further.place.left < gap.place.left then
        plainText inFlow least text further
      else plainEnd before gap
termination_by gap.place.left

def readPlain (inFlow : Bool) (least : Nat) (p : Cursor) : List Char × Cursor × Bool :=
  plainText inFlow least [] ⟨[], p, false⟩

end StrayTouch.Yaml
