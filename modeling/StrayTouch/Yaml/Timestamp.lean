import StrayTouch.Document.Value
import StrayTouch.Yaml.Cursor

/-!
Times as a document writes them: a day in figures, and perhaps after it an hour with minutes and
seconds, a fraction of a second, and how far the clock is from the common one.
-/
namespace StrayTouch.Yaml

/-- A time as it is written. Its day need not have two figures for the month and the day. -/
inductive Timestamp where
  | day (d : Date)
  | moment (m : Moment)

def figures (least most : Nat) (cs : List Char) : Option (Nat × List Char) :=
  let ds := (cs.take most).takeWhile Char.isDigit
  if ds.length < least then none else some (Text.valueOf ds, cs.drop ds.length)

def expect (c : Char) (cs : List Char) : Option (List Char) :=
  if cs.head? == some c then some cs.tail else none

def readDay (cs : List Char) : Option (Date × List Char) := do
  let (year, cs) ← figures 4 4 cs
  let (month, cs) ← figures 1 2 (← expect '-' cs)
  let (day, cs) ← figures 1 2 (← expect '-' cs)
  some (⟨year, month, day⟩, cs)

/-- A fraction of a second in microseconds, of which further digits are cut off, and what follows
it. Without a point there is none. -/
def readMicros (cs : List Char) : Nat × List Char :=
  match cs with
  | '.' :: rest =>
    let ds := rest.takeWhile Char.isDigit
    (Text.valueOf ((ds ++ Decimal.zeros 6).take 6), rest.dropWhile Char.isDigit)
  | cs => (0, cs)

def offsetMinutes (cs : List Char) : Option Nat :=
  match cs with
  | [] => some 0
  | ':' :: rest =>
    match figures 2 2 rest with
    | some (minutes, []) => some minutes
    | _ => none
  | _ => none

/-- An offset up to the end, in minutes; nothing where the clock is not told. -/
def readOffset (cs : List Char) : Option (Option Int) :=
  if cs.isEmpty then some none
  else
    match cs.dropWhile isTabOrBlank with
    | ['Z'] => some (some 0)
    | sign :: rest =>
      if sign == '+' || sign == '-' then do
        let (hours, cs) ← figures 1 2 rest
        let minutes ← offsetMinutes cs
        let offset : Int := 60 * hours + minutes
        some (some (if sign == '-' then -offset else offset))
      else none
    | [] => none

def skipToHour (cs : List Char) : Option (List Char) :=
  match cs with
  | 'T' :: rest => some rest
  | 't' :: rest => some rest
  | c :: rest => if isTabOrBlank c then some (rest.dropWhile isTabOrBlank) else none
  | [] => none

def Timestamp.read? (cs : List Char) : Option Timestamp := do
  let (date, cs) ← readDay cs
  if cs.isEmpty then some (.day date)
  else
    let (hour, cs) ← figures 1 2 (← skipToHour cs)
    let (minute, cs) ← figures 2 2 (← expect ':' cs)
    let (second, cs) ← figures 2 2 (← expect ':' cs)
    let (micro, cs) := readMicros cs
    let offset? ← readOffset cs
    some (.moment ⟨date, hour, minute, second, micro, offset?⟩)

def fullDayLength : Nat := 10

/-- Whether a text has the form of a time. A day alone must have all its figures. -/
def isTimestampForm (cs : List Char) : Bool :=
  match Timestamp.read? cs with
  | some (.day _) => cs.length == fullDayLength
  | some (.moment _) => true
  | none => false

end StrayTouch.Yaml
