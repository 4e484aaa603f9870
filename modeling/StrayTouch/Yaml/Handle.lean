import StrayTouch.Yaml.Quoted

/-!
Tags as they are written, and directives. A tag is a handle, which stands for the beginning of a
name, and the rest of the name; or a whole name in angle brackets. A directive is a line that
gives the version of the notation or says what a handle stands for.
-/
namespace StrayTouch.Yaml

structure WrittenTag where
  handle? : Option String
  rest : String
  deriving DecidableEq

def isNamePart (c : Char) : Bool :=
  c.isAlphanum || "-;/?:@&=+$,_.!~*'()[]%".toList.contains c

def escapedBytes (bytes : List UInt8) (p : Cursor) : Except Fault (List UInt8 × Cursor) :=
  if p.char? == some '%' then
    match hexNumber? 2 p.rest.tail with
    | some n =>
      let after := p.advance 3
      if _h : after.left < p.left then escapedBytes (n.toUInt8 :: bytes) after else malformed
    | none => malformed
  else .ok (bytes, p)
termination_by p.left

/-- A part of a name: characters without a percent sign, or escaped ones, which have to be
characters of their encoding in eight bits. -/
def namePart (p : Cursor) : Except Fault (List Char × Cursor) :=
  if p.char? == some '%' then do
    let (bytes, after) ← escapedBytes [] p
    match String.fromUTF8? ⟨bytes.reverse.toArray⟩ with
    | some s => .ok (s.toList, after)
    | none => malformed
  else
    let isPlain := fun c => isNamePart c && c != '%'
    .ok (p.takeWhile isPlain, p.skipWhile isPlain)

def nameParts (before : List (List Char)) (p : Cursor) :
    Except Fault (List (List Char) × Cursor) :=
  if p.char?.any isNamePart then
    match namePart p with
    | .error f => .error f
    | .ok (part, after) =>
      if _h : after.left < p.left then nameParts (part :: before) after else malformed
  else .ok (before, p)
termination_by p.left

def readName (p : Cursor) : Except Fault (String × Cursor) := do
  let (parts, after) ← nameParts [] p
  if parts.isEmpty then malformed else .ok (String.ofList parts.reverse.flatten, after)

/-- A handle, and the place after it: a mark alone, or a word between two marks. -/
def readHandle (p : Cursor) : Except Fault (String × Cursor) :=
  if p.char? != some '!' then malformed
  else if p.next.char? == some ' ' then .ok ("!", p.next)
  else
    let after := p.next.skipWhile isName
    if after.char? == some '!' then
      .ok (String.ofList ('!' :: p.next.takeWhile isName ++ ['!']), after.next)
    else malformed

def openTag (p : Cursor) : Except Fault (WrittenTag × Cursor) :=
  match p.next.char? with
  | some '<' => do
    let (name, after) ← readName p.next.next
    if after.char? == some '>' then .ok (⟨none, name⟩, after.next) else malformed
  | c =>
    if c.all isGap then .ok (⟨none, "!"⟩, p.next)
    else do
      let word := p.next.takeWhile fun c => !(isBlank c || isBreak c)
      let (handle, after) ← if word.contains '!' then readHandle p else .ok ("!", p.next)
      let (rest, after) ← readName after
      .ok (⟨some handle, rest⟩, after)

def readTag (p : Cursor) : Except Fault (WrittenTag × Cursor) := do
  let (tag, after) ← openTag p
  if after.atBlank then .ok (tag, after) else malformed

inductive Directive where
  | version (major : Nat)
  | handle (handle name : String)
  | other
  deriving DecidableEq

def versionNumber (p : Cursor) : Except Fault (Nat × Cursor) :=
  let ds := p.takeWhile Char.isDigit
  if ds.isEmpty then malformed
  else if Text.greatestDigitCount < ds.length then .error (.tooManyDigits ds.length)
  else .ok (Text.valueOf ds, p.skipWhile Char.isDigit)

def readVersion (p : Cursor) : Except Fault (Directive × Cursor) := do
  let (major, p) ← versionNumber (p.skipWhile isBlank)
  if p.char? == some '.' then
    let (_, p) ← versionNumber p.next
    if p.atBlank then .ok (.version major, p) else malformed
  else malformed

def readHandleMeaning (p : Cursor) : Except Fault (Directive × Cursor) := do
  let (handle, p) ← readHandle (p.skipWhile isBlank)
  if p.char? == some ' ' then
    let (name, p) ← readName (p.skipWhile isBlank)
    if p.atBlank then .ok (.handle handle name, p) else malformed
  else malformed

def readDirective (p : Cursor) : Except Fault (Directive × Cursor) := do
  let word := String.ofList (p.next.takeWhile isName)
  let after := p.next.skipWhile isName
  if word.isEmpty || !after.atBlank then malformed
  else
    let (directive, after) ←
      if word == "YAML" then readVersion after
      else if word == "TAG" then readHandleMeaning after
      else .ok (.other, after.skipWhile (!isBreak ·))
    .ok (directive, ← after.ignoredLine)

end StrayTouch.Yaml
