import StrayTouch.Fault
import StrayTouch.Yaml.Cursor

/-!
Scalars in quotes. In either kind of quotes a single line break reads as a blank, and of several
the first is dropped; blanks around them do not count. Double quotes know escapes, and in single
quotes a doubled quote stands for one. An escape may stand for any code point, and so a scalar in
quotes is a list of them.
-/
namespace StrayTouch.Yaml

def malformed {β : Type} : Except Fault β := .error .malformedDocument

def Cursor.ignoredLine (p : Cursor) : Except Fault Cursor :=
  let here := p.skipComment
  if here.atLineEnd then .ok here.next else malformed

def escaped? (c : Char) : Option Char :=
  match c with
  | '0' => some (Char.ofNat 0)
  | 'a' => some (Char.ofNat 7)
  | 'b' => some (Char.ofNat 8)
  | 't' => some '\t'
  | '\t' => some '\t'
  | 'n' => some '\n'
  | 'v' => some (Char.ofNat 11)
  | 'f' => some (Char.ofNat 12)
  | 'r' => some '\r'
  | 'e' => some (Char.ofNat 27)
  | ' ' => some ' '
  | '"' => some '"'
  | '\\' => some '\\'
  | '/' => some '/'
  | 'N' => some (Char.ofNat 0x85)
  | '_' => some (Char.ofNat 0xa0)
  | 'L' => some (Char.ofNat 0x2028)
  | 'P' => some (Char.ofNat 0x2029)
  | _ => none

def escapeWidth? (c : Char) : Option Nat :=
  match c with
  | 'x' => some 2
  | 'u' => some 4
  | 'U' => some 8
  | _ => none

def hexNumber? (width : Nat) (cs : List Char) : Option Nat :=
  let digits := cs.take width
  if digits.length == width && digits.all (Text.isDigitOf 16) then
    some (Text.valueIn 16 digits)
  else none

def codes (cs : List Char) : List Nat := cs.map Char.toNat

/-- The further breaks after a line break in quotes, the latest first, with the place after them.
A separator of documents must not begin a line. -/
def quotedBreaks (breaks : List Char) (p : Cursor) : Except Fault (List Char × Cursor) :=
  if atSeparator p.rest then malformed
  else
    let here := p.skipWhile isTabOrBlank
    match here.char? with
    | some c =>
      if isBreak c then
        if _h : here.next.left < p.left then quotedBreaks (keptBreak c :: breaks) here.next
        else malformed
      else .ok (breaks, here)
    | none => .ok (breaks, here)
termination_by p.left

def quotedGap (p : Cursor) : Except Fault (List Nat × Cursor) :=
  let here := p.skipWhile isTabOrBlank
  match here.char? with
  | none => malformed
  | some c =>
    if isBreak c then do
      let (further, after) ← quotedBreaks [] here.next
      .ok (codes (folded c further.reverse), after)
    else .ok (codes (p.takeWhile isTabOrBlank), here)

def greatestCode : Nat := 0x10ffff

/-- An escape after its backslash, with the place after it. An escaped line break joins two
lines. -/
def escape (p : Cursor) : Except Fault (List Nat × Cursor) :=
  match p.char? with
  | none => malformed
  | some c =>
    if isBreak c then do
      let (breaks, after) ← quotedBreaks [] p.next
      .ok (codes breaks.reverse, after)
    else
      match escaped? c, (escapeWidth? c).map fun width => (hexNumber? width p.rest.tail, width) with
      | some d, _ => .ok ([d.toNat], p.next)
      | none, some (some n, width) =>
        if greatestCode < n then .error (.codeBeyond n) else .ok ([n], p.next.advance width)
      | none, _ => malformed

/-- What comes next in quotes, with the place after it; nothing where the closing quote does. -/
def quotedPart (double : Bool) (p : Cursor) : Except Fault (Option (List Nat × Cursor)) :=
  match p.rest with
  | [] => malformed
  | c :: rest =>
    if !double && c == '\'' && rest.head? == some '\'' then
      .ok (some ([c.toNat], p.next.next))
    else if c == (if double then '"' else '\'') then .ok none
    else if double && c == '\\' then (escape p.next).map some
    else if isGap c then (quotedGap p).map some
    else .ok (some ([c.toNat], p.next))

/-- The text up to the closing quote, with the place after the quote. `before` is what has been
read of it, the latest first. -/
def quotedText (double : Bool) (before : List Nat) (p : Cursor) :
    Except Fault (List Nat × Cursor) :=
  match quotedPart double p with
  | .error f => .error f
  | .ok none => .ok (before.reverse, p.next)
  | .ok (some (read, after)) =>
    if _h : after.left < p.left then quotedText double (read.reverse ++ before) after
    else malformed
termination_by p.left

end StrayTouch.Yaml
