import StrayTouch.Fault
import StrayTouch.Scalar
import StrayTouch.Text.Numeral

/-!
Values taken for what a place needs: a real or a whole number, a key, something to go through, a
number to print. Each says what it refuses.
-/
namespace StrayTouch.Value

def written (v : Value) : Except Fault String :=
  match v.obstacle? depthLimit with
  | none => .ok v.spoken
  | some o => .error (.ofObstacle o)

/-- The whole number that a value counts as, without reading texts. -/
def whole? : Value → Option Int
  | .atom (.bool b) => some (if b then 1 else 0)
  | .atom (.int n) => some n
  | _ => none

def isNumber : Value → Bool
  | .atom a => a.asExact?.isSome
  | _ => false

/-- A real number: a number, a truth value, or a text that reads as one. Code points that are no
characters are no part of a number. -/
def toReal {α : Type} [Scalar α] : Value → Except Fault α
  | .atom (.bool b) => .ok (Scalar.ofNat (if b then 1 else 0))
  | .atom (.int n) =>
    match Scalar.ofInt? n with
    | some x => .ok x
    | none => .error .wholeTooLarge
  | .atom (.float x) => .ok (Scalar.ofFloat x)
  | .atom (.nan _) => .ok (Scalar.ofFloat Binary64.notANumber)
  | .atom (.text s) =>
    match Text.readFloat? s with
    | some x => .ok (Scalar.ofFloat x)
    | none => .error (.unreadableReal (.text s))
  | .atom (.points ns) => .error (.unreadableReal (.points ns))
  | .atom (.bytes bs) =>
    match Text.readFloatOf? (Text.charsOfBytes bs) with
    | some x => .ok (Scalar.ofFloat x)
    | none => .error (.unreadableReal (.bytes bs))
  | v => .error (.notReal v.typeName)

/-- The double of a number, which must not be a text. -/
def toDouble (v : Value) : Except Fault Float :=
  if v.isNumber then v.toReal else .error (.realRequired v.typeName)

def readWhole (base : Nat) (text : Atom) (cs : List Char) : Except Fault Int :=
  match Text.readWholeOf base cs with
  | .number n => .ok n
  | .tooLong count => .error (.tooManyDigits count)
  | .unreadable => .error (.unreadableWhole base text)

/-- A whole number; a real one loses what stands after the point. -/
def toWhole : Value → Except Fault Int
  | .atom (.bool b) => .ok (if b then 1 else 0)
  | .atom (.int n) => .ok n
  | .atom (.float x) =>
    match Binary64.form x with
    | .finite p => .ok ((p.signed * twoTo p.exponent.toNat).tdiv (twoTo (-p.exponent).toNat))
    | .infinite _ => .error .infinityNotWhole
    | .nan => .error .nanNotWhole
  | .atom (.nan _) => .error .nanNotWhole
  | .atom (.text s) =>
    readWhole 10 (.text s) s.toList
  | .atom (.points ns) => readWhole 10 (.points ns) (ns.map Char.ofNat)
  | .atom (.bytes bs) => readWhole 10 (.bytes (bs.take Fault.quotedLength)) (Text.charsOfBytes bs)
  | v => .error (.notWhole v.typeName)

/-- A number to be divided by or multiplied with a real one; texts are none. -/
def toOperand {α : Type} [Scalar α] (operation : String) (v : Value) : Except Fault α :=
  if v.isNumber then v.toReal
  else if operation == "*" && (v.typeName == "str" || v.typeName == "list") then
    .error (.notRepeatable "float")
  else .error (.notCombinable operation v.typeName "float")

mutual

/-- The name that a value is. Of a tuple every item has to be one; what holds itself is a list or a
mapping, or holds one. -/
def toName : Value → Except Fault Name
  | .atom a => .ok (.atom a)
  | .tuple items => do .ok (.tuple (← toNames items))
  | .knot _ v => do
    let _ ← v.toName
    .error (.notHashable v.typeName)
  | v => .error (.notHashable v.typeName)

def toNames : List Value → Except Fault (List Name)
  | [] => .ok []
  | v :: rest => do
    let n ← v.toName
    let others ← toNames rest
    .ok (n :: others)

end

/-- What going through a value gives: the items of a list or a tuple, the members of a set, the
characters of a text, the numbers of some bytes, the keys of a mapping. -/
def items (v : Value) : Except Fault (List Value) :=
  match v.head with
  | .list items | .tuple items => .ok items
  | .set members => .ok (members.map Name.value)
  | .atom (.text s) => .ok (s.toList.map fun c => text c.toString)
  | .atom (.points ns) => .ok (ns.map fun n => .atom (.ofPoints [n]))
  | .atom (.bytes bs) => .ok (bs.map fun (b : Nat) => int b)
  | .map entries => .ok (entries.map fun e => e.1.value)
  | v => .error (.notIterable v.typeName)

def field? (v : Value) (name : String) : Option Value :=
  match v.head with
  | .map entries => (entries.find? fun e => e.1.sameKey (.text name)).map Prod.snd
  | _ => none

def field (v : Value) (name : String) : Value :=
  (v.field? name).getD null

/-- A value where a format wants a number: texts do not know its code, and other values know no
format. -/
def formatted (code : String) (write : Float → String) (v : Value) : Except Fault String :=
  if v.isNumber then v.toReal.map write
  else if v.typeName == "str" then .error (.formatUnknown code "str")
  else .error (.formatRefused v.typeName)

def exceeds (v : Value) (bound : Int) : Except Fault Bool :=
  match v with
  | .atom a =>
    match a.asExact? with
    | some x => .ok (Exact.lt (.ofInt bound) x)
    | none => .error (.notOrdered ">" v.typeName "int")
  | _ => .error (.notOrdered ">" v.typeName "int")

/-- The difference of two numbers, exact between whole ones. -/
def difference (v w : Value) : Except Fault Value :=
  match v.whole?, w.whole? with
  | some m, some n => .ok (.int (m - n))
  | _, _ =>
    if v.isNumber && w.isNumber then do
      let x : Float ← v.toReal
      let y : Float ← w.toReal
      .ok (.float (x - y))
    else .error (.notCombinable "-" v.typeName w.typeName)

/-- A number divided by a count that is not zero, rounded once. -/
def dividedBy {α : Type} [Scalar α] (v : Value) (n : Nat) : Except Fault α :=
  match v.whole? with
  | some m =>
    match Scalar.ratio? m n with
    | some x => .ok x
    | none => .error .quotientTooLarge
  | none => do .ok ((← v.toOperand "/") / Scalar.ofNat n)

end StrayTouch.Value
