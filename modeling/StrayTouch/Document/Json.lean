import StrayTouch.Document.Convert
import StrayTouch.Text.Escaped

/-!
Values as one line of a data file: commas and colons followed by a blank, strings in ASCII, and
words for the doubles that are no finite number. Tuples are written as lists, and every key as a
string. Bytes, times and sets cannot be written, nor can keys that are no scalars of a data file.
-/
namespace StrayTouch

namespace Atom

def dataFloat (x : Float) : String :=
  match Binary64.form x with
  | .nan => "NaN"
  | .infinite true => "-Infinity"
  | .infinite false => "Infinity"
  | .finite _ => Decimal.shown x

def data : Atom → String
  | null => "null"
  | bool true => "true"
  | bool false => "false"
  | int n => toString n
  | float x => dataFloat x
  | nan _ => "NaN"
  | text s => Text.literal s
  | points ns => Text.literalPoints ns
  | a => Text.literal a.spoken

def isData : Atom → Bool
  | bytes _ | date _ | moment _ => false
  | _ => true

end Atom

namespace Name

/-- A key of a mapping is always a string. -/
def dataKey : Name → String
  | .atom (.text s) => Text.literal s
  | .atom (.points ns) => Text.literalPoints ns
  | .atom a => Text.literal a.data
  | n => Text.literal n.shown

def isDataKey : Name → Bool
  | .atom a => a.isData
  | .tuple _ => false

end Name

namespace Value

mutual

/-- The line of a value. No data file holds a value that holds itself; the mark for it reads as
an empty list. -/
def data : Value → String
  | .atom a => a.data
  | .list items => "[" ++ dataItems items ++ "]"
  | .tuple items => "[" ++ dataItems items ++ "]"
  | .set members => "[" ++ ", ".intercalate (members.map Name.shown) ++ "]"
  | .map entries => "\x7b" ++ dataEntries entries ++ "\x7d"
  | .knot _ v => v.data
  | .again _ => "[]"

def dataItems : List Value → String
  | [] => ""
  | [v] => v.data
  | v :: w :: rest => v.data ++ ", " ++ dataItems (w :: rest)

def dataEntries : List (Name × Value) → String
  | [] => ""
  | [(k, v)] => k.dataKey ++ ": " ++ v.data
  | (k, v) :: e :: rest => k.dataKey ++ ": " ++ v.data ++ ", " ++ dataEntries (e :: rest)

end

mutual

/-- What keeps a value from being written. The first thing that cannot be decides. -/
def dataFault? : Value → Option Fault
  | .atom a => if a.isData then none else some (.notWritable a.shortTypeName)
  | .list items => itemsDataFault? items
  | .tuple items => itemsDataFault? items
  | .set members => some (.notWritable (set members).shortTypeName)
  | .map entries => entriesDataFault? entries
  | .knot _ v => v.dataFault?
  | .again _ => none

def itemsDataFault? : List Value → Option Fault
  | [] => none
  | v :: rest => v.dataFault?.or (itemsDataFault? rest)

def entriesDataFault? : List (Name × Value) → Option Fault
  | [] => none
  | (k, v) :: rest =>
    ((if k.isDataKey then none else some (.keyNotWritable k.value.shortTypeName)).or
      v.dataFault?).or (entriesDataFault? rest)

end

end Value

end StrayTouch
