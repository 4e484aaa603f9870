import StrayTouch.Document.Value
import StrayTouch.Evaluator.Direction
import StrayTouch.Gesture.Point
import StrayTouch.Text.Numeral

/-!
Everything that can go wrong, by cause. `Fault.kind` sorts the causes and `Fault.message` words
them. A wording may show values; if one of them cannot be shown, that is the fault instead.
-/
namespace StrayTouch

inductive Fault.Kind where
  /-- The host broke the order of calls or the shape of a gesture. -/
  | precondition
  | configuration
  | recording
  | type
  | value
  | overflow
  | missingKey
  | position
  | missingAttribute
  | unimplemented
  | depth
  | noSuchFile
  | isDirectory
  | notDirectory
  | fileExists
  | fileSystem
  | markup
  | named (name : String)
  deriving DecidableEq

inductive Fault where
  | dpiNotPositive (given : Value)
  | strokeFrozen
  | pointNotFinite (x y : Float) (time : Value)
  | timeReversed (time previous : Value)
  | unknownContact (id : Name)
  | notCapturing (phase : Phase)
  | notEvaluable (phase : Phase)
  | emptyGesture
  | alreadyDecided
  | duplicateTags (tags : List Value)
  | badDirection (given : Value)
  | badRow (row : Value) (cause : Fault)
  | rowNotFinite (row : Value)
  | negativeIncrement (row : Value)
  | thresholdOrder (direction : Direction) (previous current : Float)
  | settingNotNumber (setting : String) (given : Value)
  | badDpi (dpi : Float)
  | badRejectThreshold (threshold : Float)
  | badPolicy (setting : String) (choices : List String) (given : Value)
  | tablesShape (typeName : String)
  | sectionShape (name typeName : String)
  | rootShape (typeName : String)
  | tableShape (feature : Name) (typeName : String)
  | thresholdsMissing (feature : Name)
  | noTable (feature : Value)
  | strokesMissing (path : String)
  | strokeShape (index : Nat)
  | pointShape (index : Nat) (point : Value)
  | notReal (typeName : String)
  | notWhole (typeName : String)
  | unreadableReal (text : Atom)
  | unreadableWhole (base : Nat) (text : Atom)
  | tooManyDigits (count : Nat)
  | tooLongToShow
  | tooDeepToShow
  | misfit (m : Misfit)
  | textEmpty
  | nanNotWhole
  | infinityNotWhole
  | wholeTooLarge
  | quotientTooLarge
  | sumTooLarge
  | notIterable (typeName : String)
  | notHashable (typeName : String)
  | notWritable (typeName : String)
  | keyNotWritable (typeName : String)
  | tooFewItems (count : Nat)
  | tooManyItems
  | notOrdered (comparison left right : String)
  | notCombinable (operation left right : String)
  | notRepeatable (factorType : String)
  | realRequired (typeName : String)
  | formatRefused (typeName : String)
  | formatUnknown (code typeName : String)
  | argumentsMissing (callee : String) (names : List String)
  | argumentsExcess (callee : String) (least most given : Nat)
  | argumentUnknown (callee name : String)
  | argumentRepeated (callee name : String)
  | notMember (given : Value) (family : String)
  | keyMissing (key : Name)
  | attributeMissing (typeName member : String)
  | featureUndefined
  | notTextItem (index : Nat) (typeName : String)
  | levelUnknown (name : String)
  | levelNotNumber (shown : String)
  | pathRequired (typeName : String)
  | textRequired (typeName : String)
  | fileMissing (path : String)
  | fileIsDirectory (path : String)
  | notADirectory (path : String)
  | nameTooLong (path : String)
  | fileExists (path : String)
  | deviceMissing (path : String)
  | noSpace
  | fileFailed (report : String)
  | nullInPath
  | fileClosed
  | malformedDocument
  | codeBeyond (code : Nat)
  | endless
  | raised (kind message : String)

namespace Fault

/-- Numbers from here on are too large to be taken for a code point at all. -/
def codeLimit : Nat := 0x80000000

def shownValues : Fault → List Value
  | dpiNotPositive given => [given]
  | pointNotFinite _ _ time => [time]
  | timeReversed time previous => [time, previous]
  | unknownContact id => [id.value]
  | duplicateTags tags => tags
  | badDirection given => [given]
  | badRow row _ => [row]
  | rowNotFinite row => [row]
  | negativeIncrement row => [row]
  | settingNotNumber _ given => [given]
  | badPolicy _ _ given => [given]
  | tableShape feature _ => [feature.value]
  | thresholdsMissing feature => [feature.value]
  | noTable feature => [feature]
  | pointShape _ point => [point]
  | notMember given _ => [given]
  | _ => []

def ofObstacle : Obstacle → Fault
  | .tooLong => tooLongToShow
  | .tooDeep => tooDeepToShow

/-- The fault that there is instead because a value cannot be shown. -/
def unshowable? (f : Fault) : Option Fault :=
  (f.shownValues.findSome? fun v => v.obstacle? Value.depthLimit).map ofObstacle

def ownKind : Fault → Kind
  | dpiNotPositive _ | strokeFrozen | pointNotFinite _ _ _ | timeReversed _ _ | unknownContact _
  | notCapturing _ | notEvaluable _ | emptyGesture | alreadyDecided | duplicateTags _ =>
    .precondition
  | badDirection _ | badRow _ _ | rowNotFinite _ | negativeIncrement _ | thresholdOrder _ _ _
  | settingNotNumber _ _ | badDpi _ | badRejectThreshold _ | badPolicy _ _ _ | tablesShape _
  | sectionShape _ _ | rootShape _ | tableShape _ _ | thresholdsMissing _ | noTable _ =>
    .configuration
  | strokesMissing _ | strokeShape _ | pointShape _ _ => .recording
  | notReal _ | notWhole _ | notIterable _ | notHashable _ | notWritable _ | keyNotWritable _
  | notOrdered _ _ _
  | notCombinable _ _ _ | notRepeatable _ | realRequired _ | formatRefused _ | argumentsMissing _ _
  | argumentsExcess _ _ _ _ | argumentUnknown _ _ | argumentRepeated _ _ | notTextItem _ _
  | levelNotNumber _ | pathRequired _ | textRequired _ => .type
  | unreadableReal _ | unreadableWhole _ _ | tooManyDigits _ | tooLongToShow | misfit _
  | nanNotWhole | tooFewItems _ | tooManyItems | formatUnknown _ _ | notMember _ _
  | levelUnknown _ | nullInPath | fileClosed => .value
  | infinityNotWhole | wholeTooLarge | quotientTooLarge | sumTooLarge => .overflow
  | keyMissing _ => .missingKey
  | textEmpty => .position
  | attributeMissing _ _ => .missingAttribute
  | featureUndefined => .unimplemented
  | endless | tooDeepToShow => .depth
  | fileMissing _ => .noSuchFile
  | fileIsDirectory _ => .isDirectory
  | notADirectory _ => .notDirectory
  | fileExists _ => .fileExists
  | nameTooLong _ | deviceMissing _ | noSpace | fileFailed _ => .fileSystem
  | malformedDocument => .markup
  | codeBeyond code => if code < codeLimit then .value else .overflow
  | raised name _ => .named name

def kind (f : Fault) : Kind :=
  (f.unshowable?.getD f).ownKind

def isOfFiles (f : Fault) : Bool :=
  match f.kind with
  | .noSuchFile | .isDirectory | .notDirectory | .fileExists | .fileSystem => true
  | _ => false

def quotedList (texts : List String) : String :=
  ", ".intercalate (texts.map Text.quoted)

def enumeration : List String → String
  | [] => ""
  | [a] => Text.quoted a
  | [a, b] => Text.quoted a ++ " and " ++ Text.quoted b
  | names => quotedList names.dropLast ++ ", and " ++ Text.quoted (names.getLast?.getD "")

def argumentCount (n : Nat) : String :=
  toString n ++ (if n == 1 then " positional argument" else " positional arguments")

/-- How much of a text in quotes is shown that is no whole number. -/
def quotedLength : Nat := 200

def digitLimit (more : String) : String :=
  "Exceeds the limit (" ++ toString Text.greatestDigitCount
    ++ " digits) for integer string conversion" ++ more
    ++ "; use sys.set_int_max_str_digits() to increase the limit"

def ownMessage : Fault → String
  | dpiNotPositive given => "dpi must be positive, got " ++ given.shown
  | strokeFrozen => "Cannot append to a frozen stroke"
  | pointNotFinite x y time =>
    "Point coordinates must be finite: "
      ++ Point.worded (Decimal.fixed 1 x) (Decimal.fixed 1 y) time.spoken
  | timeReversed time previous =>
    "Timestamp " ++ time.spoken ++ " precedes previous sample " ++ previous.spoken
  | unknownContact id => "Unknown contact " ++ id.shown
  | notCapturing phase => "Gesture is " ++ phase.name ++ ", no longer capturing"
  | notEvaluable phase => "Gesture already " ++ phase.name ++ "; evaluate once per gesture"
  | emptyGesture => "Cannot evaluate a gesture with no recorded points"
  | alreadyDecided => "Gesture already decided"
  | duplicateTags tags => "Classifier tags must be unique: " ++ (Value.list tags).shown
  | badDirection given => "direction must be 'above' or 'below', got " ++ given.shown
  | badRow row cause => "Bad evaluator row " ++ row.shown ++ ": " ++ cause.ownMessage
  | rowNotFinite row => "Evaluator row must be finite: " ++ row.shown
  | negativeIncrement row => "Increment must be non-negative: " ++ row.shown
  | thresholdOrder direction previous current =>
    "Thresholds must be strictly " ++ direction.order ++ ": " ++ Decimal.shown previous
      ++ " then " ++ Decimal.shown current
  | settingNotNumber setting given => setting ++ " must be a number, got " ++ given.shown
  | badDpi dpi => "dpi must be a positive number, got " ++ Decimal.shown dpi
  | badRejectThreshold threshold =>
    "reject_threshold must be finite, got " ++ Decimal.shown threshold
  | badPolicy setting choices given =>
    setting ++ " must be one of (" ++ quotedList choices ++ "), got " ++ given.shown
  | tablesShape typeName => "evaluators must be a mapping, got " ++ typeName
  | sectionShape name typeName =>
    "Section '" ++ name ++ "' must be a mapping, got " ++ typeName
  | rootShape typeName => "Config root must be a mapping, got " ++ typeName
  | tableShape feature typeName =>
    "Table '" ++ feature.spoken ++ "' must be a list or mapping, got " ++ typeName
  | thresholdsMissing feature => "Table '" ++ feature.spoken ++ "' is missing 'thresholds'"
  | noTable feature => "No evaluator table for feature '" ++ feature.spoken ++ "'"
  | strokesMissing path => path ++ ": expected a 'strokes' list"
  | strokeShape index =>
    "Stroke " ++ toString index ++ " must be a mapping with a 'points' list"
  | pointShape index point =>
    "Stroke " ++ toString index ++ ": point " ++ point.shown ++ " needs x, y and timestamp"
  | notReal typeName =>
    "float() argument must be a string or a real number, not '" ++ typeName ++ "'"
  | notWhole typeName =>
    "int() argument must be a string, a bytes-like object or a real number, not '" ++ typeName
      ++ "'"
  | unreadableReal text => "could not convert string to float: " ++ text.shown
  | unreadableWhole base text =>
    "invalid literal for int() with base " ++ toString base ++ ": "
      ++ (text.shown.take quotedLength).toString
  | tooManyDigits count => digitLimit (": value has " ++ toString count ++ " digits")
  | tooLongToShow => digitLimit ""
  | misfit m => m.message
  | textEmpty => "string index out of range"
  | nanNotWhole => "cannot convert float NaN to integer"
  | infinityNotWhole => "cannot convert float infinity to integer"
  | wholeTooLarge => "int too large to convert to float"
  | quotientTooLarge => "integer division result too large for a float"
  | sumTooLarge => "intermediate overflow in fsum"
  | notIterable typeName => "'" ++ typeName ++ "' object is not iterable"
  | notHashable typeName => "unhashable type: '" ++ typeName ++ "'"
  | notWritable typeName => "Object of type " ++ typeName ++ " is not JSON serializable"
  | keyNotWritable typeName =>
    "keys must be str, int, float, bool or None, not " ++ typeName
  | tooFewItems count =>
    "not enough values to unpack (expected 2, got " ++ toString count ++ ")"
  | tooManyItems => "too many values to unpack (expected 2)"
  | notOrdered comparison left right =>
    "'" ++ comparison ++ "' not supported between instances of '" ++ left ++ "' and '" ++ right
      ++ "'"
  | notCombinable operation left right =>
    "unsupported operand type(s) for " ++ operation ++ ": '" ++ left ++ "' and '" ++ right ++ "'"
  | notRepeatable factorType =>
    "can't multiply sequence by non-int of type '" ++ factorType ++ "'"
  | realRequired typeName => "must be real number, not " ++ typeName
  | formatRefused typeName => "unsupported format string passed to " ++ typeName ++ ".__format__"
  | formatUnknown code typeName =>
    "Unknown format code '" ++ code ++ "' for object of type '" ++ typeName ++ "'"
  | argumentsMissing callee names =>
    callee ++ "() missing " ++ toString names.length ++ " required positional argument"
      ++ (if names.length == 1 then ": " else "s: ") ++ enumeration names
  | argumentsExcess callee least most given =>
    callee ++ "() takes " ++
      (if least == most then argumentCount most
       else "from " ++ toString least ++ " to " ++ argumentCount most)
      ++ " but " ++ toString given ++ (if given == 1 then " was given" else " were given")
  | argumentUnknown callee name =>
    callee ++ "() got an unexpected keyword argument " ++ Text.quoted name
  | argumentRepeated callee name =>
    callee ++ "() got multiple values for argument " ++ Text.quoted name
  | notMember given family => given.shown ++ " is not a valid " ++ family
  | keyMissing key => key.shown
  | attributeMissing typeName member =>
    "'" ++ typeName ++ "' object has no attribute '" ++ member ++ "'"
  | featureUndefined => ""
  | notTextItem index typeName =>
    "sequence item " ++ toString index ++ ": expected str instance, " ++ typeName ++ " found"
  | levelUnknown name => "Unknown level: " ++ Text.quoted name
  | levelNotNumber shown => "Level not an integer or a valid string: " ++ shown
  | pathRequired typeName => "expected str, bytes or os.PathLike object, not " ++ typeName
  | textRequired typeName => "expected string or bytes-like object, got '" ++ typeName ++ "'"
  | fileMissing path => "[Errno 2] No such file or directory: " ++ Text.quoted path
  | fileIsDirectory path => "[Errno 21] Is a directory: " ++ Text.quoted path
  | notADirectory path => "[Errno 20] Not a directory: " ++ Text.quoted path
  | nameTooLong path => "[Errno 36] File name too long: " ++ Text.quoted path
  | fileExists path => "[Errno 17] File exists: " ++ Text.quoted path
  | deviceMissing path => "[Errno 6] No such device or address: " ++ Text.quoted path
  | noSpace => "[Errno 28] No space left on device"
  | fileFailed report => report
  | nullInPath => "embedded null byte"
  | fileClosed => "I/O operation on closed file."
  | malformedDocument => "<yaml error>"
  | codeBeyond code =>
    if code < codeLimit then "chr() arg not in range(0x110000)"
    else "Python int too large to convert to C int"
  | endless => "maximum recursion depth exceeded"
  | tooDeepToShow => "maximum recursion depth exceeded while getting the repr of an object"
  | raised "KeyError" message => Text.quoted message
  | raised _ message => message

def message (f : Fault) : String :=
  (f.unshowable?.getD f).ownMessage

end Fault

end StrayTouch
