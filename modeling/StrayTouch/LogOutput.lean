import StrayTouch.Disk.Basic
import StrayTouch.Document.Convert
import StrayTouch.Record

/-!
Where the log goes: to the console and perhaps to a file, from a level on. The level is given by
its name.
-/
namespace StrayTouch

namespace Level

/-- The capitals of a letter: of the letters of English and of the few others whose capitals are
letters of English. The rest are kept. -/
def capitals (c : Char) : List Char :=
  match c.toNat with
  | 0xdf => ['S', 'S']
  | 0x131 => ['I']
  | 0x17f => ['S']
  | 0xfb00 => ['F', 'F']
  | 0xfb01 => ['F', 'I']
  | 0xfb02 => ['F', 'L']
  | 0xfb03 => ['F', 'F', 'I']
  | 0xfb04 => ['F', 'F', 'L']
  | 0xfb05 => ['S', 'T']
  | 0xfb06 => ['S', 'T']
  | _ => [c.toUpper]

def names : List (String × Int) :=
  [("CRITICAL", critical), ("FATAL", critical), ("ERROR", error), ("WARNING", warning),
   ("WARN", warning), ("INFO", info), ("DEBUG", debug), ("NOTSET", 0)]

def basicLayout : String := "%(levelname)s:%(name)s:%(message)s"

def layoutStyles : String :=
  "\x7b'%': (<class 'logging.PercentStyle'>, '%(levelname)s:%(name)s:%(message)s'), "
    ++ "'\x7b': (<class 'logging.StrFormatStyle'>, "
    ++ "'\x7blevelname\x7d:\x7bname\x7d:\x7bmessage\x7d'), "
    ++ "'$': (<class 'logging.StringTemplateStyle'>, "
    ++ "'$\x7blevelname\x7d:$\x7bname\x7d:$\x7bmessage\x7d')\x7d"

/-- The level of a name in letters of either case. A name that is not known means INFO; two names
stand for layouts, which are no levels. -/
def ofName (name : String) : Except Fault Int :=
  let title := String.ofList (name.toList.flatMap capitals)
  match names.find? (·.1 == title) with
  | some e => .ok e.2
  | none =>
    if title == "BASIC_FORMAT" then .error (.levelUnknown basicLayout)
    else if title == "_STYLES" then .error (.levelNotNumber layoutStyles)
    else .ok info

end Level

/-- The least level that is logged, and the steps to the file that the log goes to too, if
any. -/
structure LogOutput where
  threshold : Int
  file? : Option (List String)

namespace LogOutput

def readLevel : Value → Except Fault Int
  | .atom (.text name) => Level.ofName name
  | v => .error (.attributeMissing v.typeName "upper")

def readFile (v : Value) : Except Fault (Option String) :=
  if v.isVoid then .ok none
  else
    match v with
    | .atom (.text path) => .ok (some path)
    | v => .error (.pathRequired v.typeName)

def withFolder (d : Disk) (path : String) : Except Fault Disk :=
  let way := (Disk.splitPath path).1
  if way.isEmpty then .ok d else d.makeFolders way (way.length + 1)

def checkSize : Value → Except Fault Unit
  | .atom .null => .error (.notCombinable "*" "NoneType" "int")
  | .map _ => .error (.notCombinable "*" "dict" "int")
  | .atom (.text _) => .error (.notOrdered ">" "str" "int")
  | .list _ => .error (.notOrdered ">" "list" "int")
  | _ => .ok ()

/-- The output for a level, a file, the greatest size of that file in megabytes and the number of
files that are kept, each of which may be left out. The size matters only where there is a
file. -/
def ofArguments (d : Disk) (arguments : List Value) : Except Fault LogOutput := do
  if 4 < arguments.length then
    .error (.argumentsExcess "setup_logging" 0 4 arguments.length)
  else
    let threshold ← readLevel ((arguments[0]?).getD (.text "INFO"))
    match ← readFile ((arguments[1]?).getD .null) with
    | none => .ok ⟨threshold, none⟩
    | some path =>
      let d ← withFolder d path
      checkSize ((arguments[2]?).getD (.int 10))
      .ok ⟨threshold, some (← d.settledTarget path)⟩

def passes (o : LogOutput) (level : Int) : Bool :=
  0 < level && o.threshold ≤ level

def fileLevel : Int := Level.debug

def padded (width : Nat) (s : String) : String :=
  String.ofList (s.toList ++ List.replicate (width - s.length) ' ')

def consoleLine (level : Int) (text : String) : String :=
  "  " ++ padded 5 (Level.name level) ++ "  " ++ text

def fileLine (level : Int) (log text : String) : String :=
  " [" ++ padded 7 (Level.name level) ++ "] " ++ padded 25 log ++ " | " ++ text

/-- What records look like on the console. One whose text cannot be made is left out. -/
def console (o : LogOutput) (records : List Record) : List String :=
  records.filterMap fun r =>
    match r.text with
    | .ok text => if o.passes r.level then some (consoleLine r.level text) else none
    | .error _ => none

end LogOutput

end StrayTouch
