import StrayTouch.Document.Convert
import StrayTouch.Text.Base64
import StrayTouch.Text.Lowercase
import StrayTouch.Yaml.Quoted
import StrayTouch.Yaml.Tag

/-!
What the text of a scalar stands for under its tag. Where the tag is implied by the form of the
text, the text reads as it should; where it is written out, the text may be anything, and the
reading may fail. Underscores in numbers do not count.
-/
namespace StrayTouch.Yaml

def chars (ns : List Nat) : List Char := ns.map Char.ofNat

def significant (ns : List Nat) : List Nat := ns.filter (· != '_'.toNat)

def takeSign (ns : List Nat) : Except Fault (Bool × List Nat) :=
  match ns with
  | [] => .error .textEmpty
  | n :: rest =>
    .ok (n == '-'.toNat, if n == '-'.toNat || n == '+'.toNat then rest else n :: rest)

def wholeIn (base : Nat) (ns : List Nat) : Except Fault Int :=
  Value.readWhole base (.ofPoints ns) (chars ns)

/-- The sum of parts of which each counts sixty times as much as the one after it. -/
def sumOfWholes (parts : List Int) : Int :=
  parts.foldl (fun n part => 60 * n + part) 0

/-- A whole number without its sign. A zero at its front and the letter after it tell the base. -/
def readMagnitude (ns : List Nat) : Except Fault Int :=
  match chars ns with
  | [] => .error .textEmpty
  | ['0'] => .ok 0
  | '0' :: 'b' :: _ => wholeIn 2 (ns.drop 2)
  | '0' :: 'x' :: _ => wholeIn 16 (ns.drop 2)
  | '0' :: _ => wholeIn 8 ns
  | _ =>
    if ns.contains ':'.toNat then do
      .ok (sumOfWholes (← (colonParts ':'.toNat ns).mapM (wholeIn 10)))
    else wholeIn 10 ns

def readWhole (ns : List Nat) : Except Fault Int := do
  let (negative, rest) ← takeSign (significant ns)
  let n ← readMagnitude rest
  .ok (if negative then -n else n)

def realOf (ns : List Nat) : Except Fault Float :=
  (Value.atom (.ofPoints ns)).toReal

/-- The sum of parts of which each counts sixty times as much as the one after it, from the last
part on. A part that counts more than any double is refused, whatever it is. -/
def sumOfReals (parts : List Float) : Except Fault Float := do
  let sum ← parts.reverse.foldlM (fun (s : Float × Nat) part =>
    match Binary64.nearest? s.2 1 with
    | some weight => .ok (s.1 + part * weight, 60 * s.2)
    | none => .error .wholeTooLarge) (0.0, 1)
  .ok sum.1

/-- A real number. All that are written as no number are one and the same; one that comes of
reading has the given mark. -/
def readReal (mark : Nat) (ns : List Nat) : Except Fault Atom := do
  let (negative, rest) ← takeSign (Text.lowercase (significant ns))
  let signed := fun (x : Float) => Atom.ofFloat (if negative then -x else x) mark
  if rest == codes ".inf".toList then .ok (signed Binary64.infinity)
  else if rest == codes ".nan".toList then .ok (.nan 0)
  else if rest.contains ':'.toNat then do
    let parts ← (colonParts ':'.toNat rest).mapM realOf
    .ok (signed (← sumOfReals parts))
  else do .ok (signed (← realOf rest))

def readTruth (ns : List Nat) : Except Fault Bool :=
  let small := Text.lowercase ns
  match truthWords.find? fun e => codes e.1.toList == small with
  | some e => .ok e.2
  | none => .error (.keyMissing (.atom (.ofPoints small)))

/-- A time, which has to be on the calendar. A line break at the very end does not count. -/
def readTime (ns : List Nat) : Except Fault Atom :=
  let cs := chars ns
  let cs := if cs.getLast? == some '\n' then cs.dropLast else cs
  match Timestamp.read? cs with
  | none => .error (.attributeMissing "NoneType" "groupdict")
  | some (.day d) =>
    match d.misfit? with
    | some m => .error (.misfit m)
    | none => .ok (.date d)
  | some (.moment t) =>
    match t.misfit? with
    | some m => .error (.misfit m)
    | none => .ok (.moment t)

/-- Bytes written with sixty-four characters. Only ASCII may stand among them. -/
def readBytes (ns : List Nat) : Except Fault Atom :=
  if ns.all (· < 128) then
    match Text.readBase64? (chars ns) with
    | some bs => .ok (.bytes bs)
    | none => malformed
  else malformed

/-- The scalar that code points stand for under a tag. What is read as no number has the given
mark. -/
def Tag.read (mark : Nat) (ns : List Nat) : Tag → Except Fault Atom
  | .null => .ok .null
  | .bool => (readTruth ns).map .bool
  | .int => (readWhole ns).map .int
  | .float => readReal mark ns
  | .timestamp => readTime ns
  | .binary => readBytes ns
  | .text => .ok (.ofPoints ns)
  | _ => malformed

end StrayTouch.Yaml
