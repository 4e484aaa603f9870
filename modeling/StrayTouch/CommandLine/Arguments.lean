import StrayTouch.Document.Value
import StrayTouch.Text.Character

/-!
The arguments of the command line: the file with the gesture, and options, each of which may be
shortened as long as it stays unique. A value stands in the next argument or after an equals sign.
-/
namespace StrayTouch.CommandLine

inductive Flag where
  | help
  | config
  | tuningLog
  | logLevel
  deriving DecidableEq

def flags : List (String × Flag) :=
  [("--help", .help), ("--config", .config), ("--tuning-log", .tuningLog),
   ("--log-level", .logLevel)]

inductive Word where
  | plain (text : String)
  | flag (f : Flag) (value : Option String)
  /-- The short form of the option for help, and the letters joined to it, perhaps by an equals
  sign. -/
  | shortHelp (joined : Option (List Char))
  | unknown
  | separator

def splitAtEquals (cs : List Char) : List Char × Option String :=
  match cs.dropWhile (· != '=') with
  | [] => (cs, none)
  | _ :: value => (cs.takeWhile (· != '='), some (String.ofList value))

def isDigits (cs : List Char) : Bool :=
  !cs.isEmpty && cs.all fun c => (Text.digitValue? c).isSome

def withoutLineFeed (cs : List Char) : List Char :=
  if cs.getLast? == some '\n' then cs.dropLast else cs

/-- Whether these are the characters of a negative number, which is no option. A line feed after
it does not matter. -/
def isNegative (cs : List Char) : Bool :=
  match withoutLineFeed cs with
  | '-' :: rest =>
    let isDigit := fun c => (Text.digitValue? c).isSome
    isDigits rest ||
      match rest.dropWhile isDigit with
      | '.' :: places => isDigits places
      | _ => false
  | _ => false

def candidates (name : List Char) : List Flag :=
  match flags.find? (·.1.toList == name) with
  | some e => [e.2]
  | none => (flags.filter fun e => name.isPrefixOf e.1.toList).map Prod.snd

def classify? (s : String) : Option Word :=
  let cs := s.toList
  let other : Word := if isNegative cs || cs.contains ' ' then .plain s else .unknown
  match cs with
  | '-' :: '-' :: _ =>
    let (name, value) := splitAtEquals cs
    match candidates name with
    | [] => some other
    | [f] => some (.flag f value)
    | _ => none
  | ['-', 'h'] => some (.shortHelp none)
  | '-' :: 'h' :: '=' :: joined => some (.shortHelp (some joined))
  | '-' :: 'h' :: joined => some (.shortHelp (some joined))
  | '-' :: _ :: _ => some other
  | _ => some (.plain s)

def words? : List String → Option (List Word)
  | [] => some []
  | "--" :: rest => some (.separator :: rest.map .plain)
  | s :: rest => do
    let word ← classify? s
    let more ← words? rest
    some (word :: more)

end CommandLine

open CommandLine

/-- What the command line asks for: the file with the gesture, the files with the configuration
and for the tuning log, which are void where there are none, and the level of the log. -/
structure Invocation where
  gesture : Option String
  config : String
  tuningLog : String
  logLevel : Value

inductive Usage where
  | run (i : Invocation)
  | help
  | refused

namespace Invocation

def default : Invocation := ⟨none, "", "", .text "INFO"⟩

def set (i : Invocation) (f : Flag) (value : String) : Invocation :=
  let name := if value == "--" then "" else value
  match f with
  | .help => i
  | .config => { i with config := name }
  | .tuningLog => { i with tuningLog := name }
  | .logLevel => { i with logLevel := if value == "--" then .list [] else .text value }

/-- Words one after another. There is one file with a gesture, and the separator stands next to
it; a word too many is refused at the end, unless help has been asked for by then. The short form
of the option for help may be joined to itself, but to nothing else. -/
def read (i : Invocation) (excess : Bool) : List Word → Usage
  | [] => if excess || i.gesture.isNone then .refused else .run i
  | .plain s :: rest =>
    if i.gesture.isNone then
      match rest with
      | .separator :: rest => { i with gesture := some s }.read excess rest
      | rest => { i with gesture := some s }.read excess rest
    else i.read true rest
  | .separator :: rest => i.read (excess || i.gesture.isSome) rest
  | .unknown :: rest => i.read true rest
  | .shortHelp none :: _ => .help
  | .shortHelp (some joined) :: _ =>
    if !joined.isEmpty && joined.all (· == 'h') then .help else .refused
  | .flag .help value :: _ => if value.isNone then .help else .refused
  | .flag f (some value) :: rest => (i.set f value).read excess rest
  | .flag f none :: .plain value :: rest => (i.set f value).read excess rest
  | .flag _ none :: _ => .refused

end Invocation

def Usage.ofArguments (arguments : List String) : Usage :=
  match words? arguments with
  | some words => Invocation.default.read false words
  | none => .refused

end StrayTouch
