import StrayTouch.Yaml.Block
import StrayTouch.Yaml.Handle
import StrayTouch.Yaml.Plain

/-!
The marks and scalars of a document in order. Indentation becomes marks of its own: deeper lines
open a collection and shallower ones end it. A node turns out to be a key only when the colon
after it is met, so the place before it is kept until then.

A token is read only when it is asked for. Text that is no document is refused however far that
has been read, but some faults of other kinds count only if nothing is wrong with the tokens before
them that can be handed on by then; those end the tokens.
-/
namespace StrayTouch.Yaml

inductive Token where
  | listStart
  | mapStart
  | blockEnd
  | openList
  | closeList
  | openMap
  | closeMap
  | comma
  | item
  | key
  | value
  | anchor (name : String)
  | alias (name : String)
  | tag (t : WrittenTag)
  | plain (text : List Char)
  | quoted (points : List Nat)
  | directive (d : Directive)
  | documentStart
  | documentEnd
  deriving DecidableEq

/-- Tokens, and what goes wrong when one after them is asked for. -/
structure Tokens where
  list : List Token
  fault? : Option Fault

/-- A node that may turn out to be a key: the number of tokens before it and where it stands. A
node that begins a line of a mapping has to be one. -/
structure Candidate where
  place : Nat
  required : Bool
  left : Nat
  line : Nat
  column : Nat

/-- The reading of tokens: the columns of the open indented collections, innermost first; whether
a key may begin here; the candidate of the innermost bracketed collection and those around it;
and the tokens so far, latest first, with their number. -/
structure Lexer where
  cursor : Cursor
  columns : List Nat
  keyAllowed : Bool
  candidate : Option Candidate
  outer : List (Option Candidate)
  tokens : List Token
  count : Nat

namespace Lexer

def start (cs : List Char) : Lexer :=
  let p := Cursor.start cs
  ⟨if p.char?.any (·.toNat == 0xfeff) then p.next else p, [], true, none, [], [], 0⟩

def inFlow (l : Lexer) : Bool :=
  !l.outer.isEmpty

def emit (l : Lexer) (t : Token) : Lexer :=
  { l with tokens := t :: l.tokens, count := l.count + 1 }

def emitTo (l : Lexer) (t : Token) (p : Cursor) : Lexer :=
  { l.emit t with cursor := p }

def take (l : Lexer) (t : Token) (width : Nat) : Lexer :=
  l.emitTo t (l.cursor.advance width)

/-- The collections whose lines are indented deeper than a column end there. Brackets suspend
indentation. -/
def closeBeyond (l : Lexer) (column : Nat) : Lexer :=
  if l.inFlow then l
  else
    let ended := l.columns.takeWhile (column < ·)
    { l with
      columns := l.columns.dropWhile (column < ·)
      tokens := ended.map (fun _ => .blockEnd) ++ l.tokens
      count := l.count + ended.length }

def closeAll (l : Lexer) : Lexer :=
  if l.inFlow then l
  else
    { l with
      columns := []
      tokens := l.columns.map (fun _ => .blockEnd) ++ l.tokens
      count := l.count + l.columns.length }

def opensAt (l : Lexer) (column : Nat) : Bool :=
  match l.columns with
  | [] => true
  | c :: _ => c < column

def leastColumn (l : Lexer) : Nat :=
  match l.columns with
  | [] => 0
  | c :: _ => c + 1

def giveUp (c : Option Candidate) : Except Fault Unit :=
  if c.any (·.required) then malformed else .ok ()

def dropCandidate (l : Lexer) : Except Fault Lexer := do
  giveUp l.candidate
  .ok { l with candidate := none }

def mark (l : Lexer) : Except Fault Lexer := do
  if l.keyAllowed then
    giveUp l.candidate
    let p := l.cursor
    let required := !l.inFlow && l.columns.head? == some p.column
    .ok { l with candidate := some ⟨l.count, required, p.left, p.line, p.column⟩ }
  else .ok l

def keyLimit : Nat := 1024

/-- A key stands on one line and is not too long; a candidate that is past that is none. -/
def current (l : Lexer) (c : Option Candidate) : Except Fault (Option Candidate) :=
  match c with
  | none => .ok none
  | some c =>
    if c.line != l.cursor.line || keyLimit < c.left - l.cursor.left then do
      giveUp c
      .ok none
    else .ok (some c)

def refresh (l : Lexer) : Except Fault Lexer := do
  let candidate ← l.current l.candidate
  let outer ← l.outer.mapM l.current
  .ok { l with candidate, outer }

/-- The place of the next token, after blanks, comments and line breaks. A new line may begin
with a key. -/
def skipGap (p : Cursor) (keyAllowed inFlow : Bool) : Cursor × Bool :=
  let here := p.skipComment
  if here.char?.any isBreak then
    if _h : here.next.left < p.left then skipGap here.next (keyAllowed || !inFlow) inFlow
    else (here, keyAllowed)
  else (here, keyAllowed)
termination_by p.left

def atToken (l : Lexer) : Except Fault Lexer := do
  let (p, keyAllowed) := skipGap l.cursor l.keyAllowed l.inFlow
  let l ← { l with cursor := p, keyAllowed }.refresh
  .ok (l.closeBeyond p.column)

def endContent (l : Lexer) : Except Fault Lexer := do
  let l ← l.closeAll.dropCandidate
  .ok { l with keyAllowed := false }

def separator (l : Lexer) (t : Token) : Except Fault Lexer := do
  .ok ((← l.endContent).take t 3)

def directive (l : Lexer) : Except Fault Lexer := do
  let l ← l.endContent
  let (d, after) ← readDirective l.cursor
  .ok (l.emitTo (.directive d) after)

/-- So many brackets inside each other are more than anybody who asks for tokens goes into. -/
def bracketLimit : Nat := 2048

def opening (l : Lexer) (t : Token) : Except Fault Lexer := do
  let l ← l.mark
  if bracketLimit ≤ l.outer.length then .error .endless
  else
    let inner := { l with keyAllowed := true, candidate := none, outer := l.candidate :: l.outer }
    .ok (inner.take t 1)

def closing (l : Lexer) (t : Token) : Except Fault Lexer := do
  let l ← l.dropCandidate
  match l.outer with
  | [] => malformed
  | c :: outer => .ok ({ l with keyAllowed := false, candidate := c, outer }.take t 1)

def comma (l : Lexer) : Except Fault Lexer := do
  let l ← l.dropCandidate
  .ok ({ l with keyAllowed := true }.take .comma 1)

def lineStart (l : Lexer) (t : Token) : Except Fault Lexer :=
  if l.inFlow then .ok l
  else if !l.keyAllowed then malformed
  else
    let column := l.cursor.column
    if l.opensAt column then .ok ({ l with columns := column :: l.columns }.emit t) else .ok l

def item (l : Lexer) : Except Fault Lexer := do
  let l ← (← l.lineStart .listStart).dropCandidate
  .ok ({ l with keyAllowed := true }.take .item 1)

def explicitKey (l : Lexer) : Except Fault Lexer := do
  let l ← (← l.lineStart .mapStart).dropCandidate
  .ok ({ l with keyAllowed := !l.inFlow }.take .key 1)

def insertAt (l : Lexer) (place : Nat) (more : List Token) : Lexer :=
  let late := l.count - place
  { l with
    tokens := l.tokens.take late ++ more.reverse ++ l.tokens.drop late
    count := l.count + more.length }

/-- A colon before a value. If there is a candidate, it is the key. -/
def valueMark (l : Lexer) : Except Fault Lexer := do
  match l.candidate with
  | some c =>
    let opens := !l.inFlow && l.opensAt c.column
    let l := l.insertAt c.place (if opens then [.mapStart, .key] else [.key])
    .ok ({ l with
      keyAllowed := false
      candidate := none
      columns := if opens then c.column :: l.columns else l.columns }.take .value 1)
  | none =>
    let l ← l.lineStart .mapStart
    .ok ({ l with keyAllowed := !l.inFlow }.take .value 1)

def endsName (c : Char) : Bool :=
  isGap c || "?:,]\x7d%@".toList.contains c || c.toNat == 0x60

def named (l : Lexer) (t : String → Token) : Except Fault Lexer := do
  let l ← l.mark
  let name := l.cursor.next.takeWhile isName
  let after := l.cursor.next.skipWhile isName
  if name.isEmpty || !after.char?.all endsName then malformed
  else .ok ({ l with keyAllowed := false }.emitTo (t (String.ofList name)) after)

def tag (l : Lexer) : Except Fault Lexer := do
  let l ← l.mark
  let (t, after) ← readTag l.cursor
  .ok ({ l with keyAllowed := false }.emitTo (.tag t) after)

def block (l : Lexer) (folding : Bool) : Except Fault Lexer := do
  let l ← l.dropCandidate
  let (text, after) ← readBlock folding l.leastColumn l.cursor
  .ok ({ l with keyAllowed := true }.emitTo (.quoted (codes text)) after)

def quoted (l : Lexer) (double : Bool) : Except Fault Lexer := do
  let l ← l.mark
  let (points, after) ← quotedText double [] l.cursor.next
  .ok ({ l with keyAllowed := false }.emitTo (.quoted points) after)

/-- A scalar without quotes. A key may follow it if it ends with its line. -/
def plain (l : Lexer) : Except Fault Lexer := do
  let l ← l.mark
  let (text, after, broken) := readPlain l.inFlow l.leastColumn l.cursor
  .ok ({ l with keyAllowed := broken }.emitTo (.plain text) after)

def token (l : Lexer) : Except Fault Lexer :=
  match l.cursor.rest with
  | [] => .ok l
  | c :: rest =>
    let gapNext := atGap rest
    let lineBegins := l.cursor.column == 0
    if lineBegins && c == '%' then l.directive
    else if lineBegins && c == '-' && atSeparator (c :: rest) then l.separator .documentStart
    else if lineBegins && c == '.' && atSeparator (c :: rest) then l.separator .documentEnd
    else if c == '[' then l.opening .openList
    else if c == '\x7b' then l.opening .openMap
    else if c == ']' then l.closing .closeList
    else if c == '\x7d' then l.closing .closeMap
    else if c == ',' then l.comma
    else if c == '-' && gapNext then l.item
    else if c == '?' && (l.inFlow || gapNext) then l.explicitKey
    else if c == ':' && (l.inFlow || gapNext) then l.valueMark
    else if c == '*' then l.named .alias
    else if c == '&' then l.named .anchor
    else if c == '!' then l.tag
    else if c == '|' && !l.inFlow then l.block false
    else if c == '>' && !l.inFlow then l.block true
    else if c == '\'' then l.quoted false
    else if c == '"' then l.quoted true
    else if beginsPlain l.inFlow (c :: rest) then l.plain
    else malformed

/-- The tokens that can be handed on: those before the first candidate, because it is not known
yet whether a key begins with it. -/
def settled (l : Lexer) : List Token :=
  let places := (l.candidate :: l.outer).filterMap fun c => c.map Candidate.place
  (l.tokens.drop (l.count - places.foldl min l.count)).reverse

def run (l : Lexer) : Except Fault Tokens := do
  let waiting ← l.refresh
  let here ← waiting.atToken
  if here.cursor.rest.isEmpty then
    let last ← here.closeAll.dropCandidate
    .ok ⟨last.tokens.reverse, none⟩
  else
    match here.token with
    | .error .malformedDocument => malformed
    | .error f => .ok ⟨waiting.settled, some f⟩
    | .ok after =>
      if _h : after.cursor.left < l.cursor.left then after.run
      else malformed
termination_by l.cursor.left

end Lexer

def isReadable (c : Char) : Bool :=
  let n := c.toNat
  n == 9 || n == 10 || n == 13 || (32 ≤ n && n ≤ 126) || n == 0x85 || (0xa0 ≤ n && n ≤ 0xd7ff)
    || (0xe000 ≤ n && n ≤ 0xfffd) || 0x10000 ≤ n

def unifiedLines : List Char → List Char
  | [] => []
  | '\r' :: '\n' :: rest => '\n' :: unifiedLines rest
  | '\r' :: rest => '\n' :: unifiedLines rest
  | c :: rest => c :: unifiedLines rest

/-- The characters are looked at in pieces before any of a piece is read. -/
def pieceLength : Nat := 4096

/-- The number of characters in the pieces before the one with the character at an index. The
first piece is twice as long. -/
def piecesBefore (index : Nat) : Nat :=
  if index < 2 * pieceLength then 0 else index / pieceLength * pieceLength

/-- The tokens of a text. Those after the piece with a character that no document may hold cannot
be read. -/
def Tokens.ofText (text : String) : Except Fault Tokens :=
  let cs := unifiedLines text.toList
  match cs.findIdx? (!isReadable ·) with
  | none => (Lexer.start cs).run
  | some index => do
    let read ← (Lexer.start (cs.take (piecesBefore index))).run
    if read.fault?.isSome then .ok read else malformed

end StrayTouch.Yaml
