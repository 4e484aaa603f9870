/-!
A place in the text of a document: what is still to be read, and where that stands. Lines end at
any of four characters.
-/
namespace StrayTouch.Yaml

def isBreak (c : Char) : Bool :=
  c == '\n' || c.toNat == 0x85 || c.toNat == 0x2028 || c.toNat == 0x2029

def isBlank (c : Char) : Bool :=
  c == ' '

def isTabOrBlank (c : Char) : Bool :=
  c == ' ' || c == '\t'

def isGap (c : Char) : Bool :=
  isTabOrBlank c || isBreak c

def isName (c : Char) : Bool :=
  c.isAlphanum || c == '-' || c == '_'

def atGap (cs : List Char) : Bool :=
  cs.head?.all isGap

def atSeparator (cs : List Char) : Bool :=
  (cs.take 3 == ['-', '-', '-'] || cs.take 3 == ['.', '.', '.']) && atGap (cs.drop 3)

/-- A line break as a scalar keeps it: the two ordinary ones are one and the same. -/
def keptBreak (c : Char) : Char :=
  if c == '\n' || c.toNat == 0x85 then '\n' else c

/-- What a line break and the breaks after it read as where lines are folded: a single one is a
blank, and of several the first is dropped. -/
def folded (first : Char) (further : List Char) : List Char :=
  if keptBreak first != '\n' then keptBreak first :: further
  else if further.isEmpty then [' ']
  else further

structure Cursor where
  rest : List Char
  left : Nat
  line : Nat
  column : Nat

namespace Cursor

def start (cs : List Char) : Cursor :=
  ⟨cs, cs.length, 0, 0⟩

def char? (p : Cursor) : Option Char :=
  p.rest.head?

/-- The place after the next character. A byte order mark takes no column. -/
def next (p : Cursor) : Cursor :=
  match p.rest with
  | [] => p
  | c :: rest =>
    if isBreak c then ⟨rest, p.left - 1, p.line + 1, 0⟩
    else ⟨rest, p.left - 1, p.line, if c.toNat == 0xfeff then p.column else p.column + 1⟩

def advance (p : Cursor) : Nat → Cursor
  | 0 => p
  | n + 1 => p.next.advance n

def skipWhile (test : Char → Bool) (p : Cursor) : Cursor :=
  p.rest.takeWhile test |>.foldl (fun q _ => q.next) p

def takeWhile (test : Char → Bool) (p : Cursor) : List Char :=
  p.rest.takeWhile test

def atLineEnd (p : Cursor) : Bool :=
  p.char?.all isBreak

/-- Whether a blank comes next, or the end of the line or the text. A tab is no blank. -/
def atBlank (p : Cursor) : Bool :=
  p.char?.all fun c => isBlank c || isBreak c

def skipComment (p : Cursor) : Cursor :=
  let here := p.skipWhile isBlank
  if here.char? == some '#' then here.skipWhile (!isBreak ·) else here

end Cursor

end StrayTouch.Yaml
