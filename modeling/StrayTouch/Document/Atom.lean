import StrayTouch.Document.Calendar
import StrayTouch.Text.Numeral
import StrayTouch.Text.Quoted

/-!
Scalars: null, truth values, numbers, texts, bytes and times. Two of them are the same key when
they are equal as numbers, texts or times.
-/
namespace StrayTouch

/-- A scalar. A value that is no number carries a mark of where it was read, because it is the
same key only as itself. -/
inductive Atom where
  | null
  | bool (b : Bool)
  | int (n : Int)
  | float (x : Float)
  | nan (mark : Nat)
  | text (s : String)
  /-- A text with code points that are no characters, which only escapes can write. -/
  | points (ns : List Nat)
  | bytes (bs : List Nat)
  | date (d : Date)
  | moment (m : Moment)
  deriving Inhabited

/-- What is the same for scalars that are the same key. -/
inductive Atom.Key where
  | null
  | number (x : Exact)
  | unequal (mark : Nat)
  | text (s : String)
  | points (ns : List Nat)
  | bytes (bs : List Nat)
  | date (d : Date)
  | moment (m : Moment)
  | instant (micros : Int)
  deriving DecidableEq

namespace Atom

def ofFloat (x : Float) (mark : Nat) : Atom :=
  if Binary64.isNaN x then nan mark else float x

def ofPoints (ns : List Nat) : Atom :=
  if ns.all fun n => n.isValidChar then text (String.ofList (ns.map Char.ofNat)) else points ns

/-- The key of a scalar. Truth values count as zero and one, and a whole number is the same key
as the double equal to it. -/
def key : Atom → Key
  | null => .null
  | bool b => .number (.ofInt (if b then 1 else 0))
  | int n => .number (.ofInt n)
  | float x => .number (Binary64.exact x)
  | nan mark => .unequal mark
  | text s => .text s
  | points ns => .points ns
  | bytes bs => .bytes bs
  | date d => .date d
  | moment m =>
    match m.common? with
    | some micros => .instant micros
    | none => .moment m

def sameKey (a b : Atom) : Bool :=
  decide (a.key = b.key)

def shown : Atom → String
  | null => "None"
  | bool true => "True"
  | bool false => "False"
  | int n => toString n
  | float x => Decimal.shown x
  | nan _ => "nan"
  | text s => Text.quoted s
  | points ns => Text.quotedPoints ns
  | bytes bs => Text.quotedBytes bs
  | date d => d.shown
  | moment m => m.shown

/-- How a scalar reads as plain text: a text is itself, times are in figures, the rest is as
shown. -/
def spoken : Atom → String
  | text s => s
  | points ns => Text.spokenPoints ns
  | date d => d.figures
  | moment m => m.figures
  | a => a.shown

/-- Whole numbers from here on have too many digits to be shown. -/
def shownBound : Nat := tenTo Text.greatestDigitCount

def isShowable : Atom → Bool
  | int n => n.natAbs < shownBound
  | _ => true

def points? : Atom → Option (List Nat)
  | text s => some (s.toList.map Char.toNat)
  | points ns => some ns
  | _ => none

def asExact? : Atom → Option Exact
  | bool b => some (.ofInt (if b then 1 else 0))
  | int n => some (.ofInt n)
  | float x => some (Binary64.exact x)
  | nan _ => some .nan
  | _ => none

def typeName : Atom → String
  | null => "NoneType"
  | bool _ => "bool"
  | int _ => "int"
  | float _ => "float"
  | nan _ => "float"
  | text _ => "str"
  | points _ => "str"
  | bytes _ => "bytes"
  | date _ => "datetime.date"
  | moment _ => "datetime.datetime"

def shortTypeName : Atom → String
  | date _ => "date"
  | moment _ => "datetime"
  | a => a.typeName

def equal (a b : Atom) : Bool :=
  match a.asExact?, b.asExact? with
  | some x, some y => x.eq y
  | none, none => a.sameKey b
  | _, _ => false

end Atom

end StrayTouch
