import StrayTouch.Yaml.Timestamp

/-!
Tags: what kind of thing a node is. A node that is given none has the tag that the form of its
text implies, by the rules of YAML 1.1: nothing, a truth value, a whole number in one of five
notations, a real number with a point, a time, the mark for merging or for a default value, or
else a text.
-/
namespace StrayTouch.Yaml

inductive Tag where
  | null
  | bool
  | int
  | float
  | timestamp
  | binary
  | text
  | list
  | map
  | orderedMap
  | pairs
  | set
  /-- The key under which a mapping takes over other mappings. -/
  | merge
  /-- The key of the scalar that a mapping stands for where it has to be one. -/
  | default
  | unknown
  deriving DecidableEq

namespace Tag

def family : String := "tag:yaml.org,2002:"

def names : List (String × Tag) :=
  [("null", null), ("bool", bool), ("int", int), ("float", float), ("timestamp", timestamp),
   ("binary", binary), ("str", text), ("seq", list), ("map", map), ("omap", orderedMap),
   ("pairs", pairs), ("set", set), ("merge", merge), ("value", default)]

def ofName (name : String) : Tag :=
  ((names.find? fun e => family ++ e.1 == name).map Prod.snd).getD unknown

end Tag

def colonParts {β : Type} [BEq β] (colon : β) : List β → List (List β)
  | [] => [[]]
  | c :: rest =>
    if c == colon then [] :: colonParts colon rest
    else
      match colonParts colon rest with
      | [] => [[c]]
      | part :: parts => (c :: part) :: parts

def isDigitOrLow (c : Char) : Bool := c.isDigit || c == '_'

def isBinaryDigit (c : Char) : Bool := c == '0' || c == '1' || c == '_'

def isOctalDigit (c : Char) : Bool := '0' ≤ c && c ≤ '7' || c == '_'

def isHexadecimalDigit (c : Char) : Bool := Text.isDigitOf 16 c || c == '_'

def isSixtieth (cs : List Char) : Bool :=
  match cs with
  | [d] => d.isDigit
  | [t, d] => '0' ≤ t && t ≤ '5' && d.isDigit
  | _ => false

def isNumber (cs : List Char) : Bool :=
  cs.head?.any Char.isDigit && cs.all isDigitOrLow

def inSixtieths : List (List Char) → Bool
  | first :: second :: more => isNumber first && (second :: more).all isSixtieth
  | _ => false

/-- Whether a text without its sign has the form of a whole number: binary, hexadecimal, octal
after a leading zero, decimal, or in sixtieths with colons between them. -/
def isWholeMagnitude (cs : List Char) : Bool :=
  match cs with
  | ['0'] => true
  | '0' :: c :: rest =>
    (c == 'b' && !rest.isEmpty && rest.all isBinaryDigit)
      || (c == 'x' && !rest.isEmpty && rest.all isHexadecimalDigit)
      || (c :: rest).all isOctalDigit
  | cs => isNumber cs || inSixtieths (colonParts ':' cs)

def isWhole (cs : List Char) : Bool :=
  isWholeMagnitude (Text.takeSign cs).2

def isExponent (cs : List Char) : Bool :=
  match cs with
  | [] => true
  | e :: sign :: ds =>
    (e == 'e' || e == 'E') && (sign == '+' || sign == '-') && !ds.isEmpty && ds.all Char.isDigit
  | _ => false

def isFraction (cs : List Char) : Bool :=
  isExponent (cs.dropWhile isDigitOrLow)

/-- Whether a text without its sign has the form of a real number. Before the point, and where
there is no sign after it, there has to be a digit. -/
def isRealMagnitude (signed : Bool) (cs : List Char) : Bool :=
  let word := String.ofList cs
  let before := cs.takeWhile (· != '.')
  match cs.dropWhile (· != '.') with
  | '.' :: places =>
    word == ".inf" || word == ".Inf" || word == ".INF"
      || (!signed && (word == ".nan" || word == ".NaN" || word == ".NAN"))
      || (isNumber before && isFraction places)
      || (!signed && before.isEmpty && places.head?.any Char.isDigit && isFraction places)
      || (inSixtieths (colonParts ':' before) && places.all isDigitOrLow)
  | _ => false

def isReal (cs : List Char) : Bool :=
  let rest := (Text.takeSign cs).2
  isRealMagnitude (rest.length < cs.length) rest

def truthWords : List (String × Bool) :=
  [("yes", true), ("no", false), ("true", true), ("false", false), ("on", true), ("off", false)]

/-- Whether a text is one of some words, all in small letters, or with one capital at the front,
or all in capitals. -/
def isWord (words : List String) (s : String) : Bool :=
  words.any fun w => s == w || s == w.capitalize || s == w.toUpper

/-- The tag that the form of a text implies. A line break at the very end does not count. -/
def Tag.ofForm (cs : List Char) : Tag :=
  let cs := if cs.getLast? == some '\n' && 1 < cs.length then cs.dropLast else cs
  let s := String.ofList cs
  if isWord (truthWords.map Prod.fst) s then .bool
  else if isReal cs then .float
  else if isWhole cs then .int
  else if s == "<<" then .merge
  else if s == "" || s == "~" || isWord ["null"] s then .null
  else if isTimestampForm cs then .timestamp
  else if s == "=" then .default
  else if s == "!" || s == "&" || s == "*" then .unknown
  else .text

end StrayTouch.Yaml
