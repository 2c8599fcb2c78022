import LayerStack.Framework
import LayerStack.Layer.Shape

/-! What can go wrong, as causes, and the message of each cause.  Some faults are the caller's and
are reported with a status; the others end a request without a report. -/

namespace LayerStack

/-- Why layers, or the body of a request, are refused. -/
inductive Refusal where
  | notAFlag (key : String) (value : Value)
  | notANumber (key : String) (value : Value)
  | notFinite (key : String) (value : Value)
  | noSuchField (kind : Kind) (key : Text)
  /-- No layer has the id; an absent id is nobody's. -/
  | noSuchLayer (id : Option Text)
  | duplicateId (id : Text)
  | layersNotAList
  | entryNotAnObject (position : Nat)
  | unknownType (type : Value)
  | configNotAnObject (position : Nat)
  | bodyNotAnObject
  | optionNotText (key : String) (value : Value)
  | contextNotAnObject
  | unknownDimension (key : Text)
  | sizeNotPositive (key : String)

/-- Why something could not be done. -/
inductive Fault where
  /-- A refusal, and the layer that it is about. -/
  | refused (why : Refusal) (layerId : Option Text)
  | unknownFramework (framework : Value)
  | settingsNotAnObject
  | unknownSetting (key : Text)
  | invalidSetting (key : String) (value : Value)
  | unknownKind (kind : Value)
  /-- A configuration lacks a key that is read. -/
  | missingKey (key : String)
  /-- Two values have no sum, product or quotient, whose sign is given. -/
  | notOperands (sign : String) (left right : Value)
  /-- A text or a list is repeated by something that is no whole number. -/
  | notARepeatCount (count : Value)
  /-- Something other than a text is put behind a text, or other than a list behind a list. -/
  | notJoined (left right : Value)
  /-- A text or a list is repeated by a number that no position can have. -/
  | repeatCountTooLarge
  /-- A repeated text has more characters than there are positions. -/
  | textTooLong
  /-- There is no room for what is computed. -/
  | noRoom
  /-- A number of passes is no whole number. -/
  | notAPassCount (value : Value)
  /-- A count is neither a number nor text. -/
  | notACount (value : Value)
  /-- A count is text that is no numeral. -/
  | notANumeral (text : Text)
  | numeralTooLong (digits : Nat)
  | nanCount
  | infiniteCount
  | divisionByZero
  | realDivisionByZero
  | noSuchPosition
  | takeFromEmpty
  | takeOutOfRange
  /-- A number is too large for a position at which something is put in or taken out. -/
  | positionTooLarge
  /-- A number is too large for a position that is looked at. -/
  | indexTooLarge
  /-- A whole number has no finite double near it. -/
  | wholeTooLarge
  /-- A quotient of whole numbers has no finite double near it. -/
  | quotientTooLarge
  /-- A list or an object was looked up in a table, whose keys are scalars. -/
  | notAKey (value : Value)
  /-- The body of a request is nested too deep. -/
  | bodyTooDeep
  /-- A whole number has too many digits to be written. -/
  | unwritable

namespace Refusal

def dimensionNames : String := String.intercalate ", " (Dimension.all.map Dimension.name)

def message : Refusal → Text
  | .notAFlag key value =>
    "Field '" ++ key ++ "' expects true or false, got " ++ value.spelling
  | .notANumber key value => "Field '" ++ key ++ "' expects a number, got " ++ value.spelling
  | .notFinite key value =>
    "Field '" ++ key ++ "' must be a finite number, got " ++ value.spelling
  | .noSuchField kind key => "Layer type '" ++ kind.name ++ "' has no field '" ++ key ++ "'"
  | .noSuchLayer id => "No layer with id '" ++ id.getD (.ofString "None") ++ "'"
  | .duplicateId id => "Duplicate layer id '" ++ id ++ "'"
  | .layersNotAList => "'layers' must be a list"
  | .entryNotAnObject position =>
    "Layer " ++ Decimal.natText position ++ " is not an object"
  | .unknownType type => "Unknown layer type " ++ type.spelling
  | .configNotAnObject position =>
    "Configuration of layer " ++ Decimal.natText position ++ " is not an object"
  | .bodyNotAnObject => "Request body must be a JSON object"
  | .optionNotText key value => "'" ++ key ++ "' must be a string, got " ++ value.spelling
  | .contextNotAnObject => "'context' must be a JSON object"
  | .unknownDimension key =>
    "Unknown context field '" ++ key ++ "'; expected one of " ++ dimensionNames ++
      " (input_size is the Conv2D/pooling image side, spatial_size the BatchNorm H*W)"
  | .sizeNotPositive key => "Context field '" ++ key ++ "' must be a positive integer"

end Refusal

namespace Fault

/-- How much of a text that is no numeral is shown, quotes included. -/
def maxLiteralLength : Nat := 200

def digitLimit : String :=
  "Exceeds the limit (" ++ Decimal.natText Decimal.maxNumeralDigits ++
    " digits) for integer string conversion"

def digitLimitHint : String := "; use sys.set_int_max_str_digits() to increase the limit"

def frameworkNames : String := String.intercalate ", " (Framework.all.map Framework.name)

def message : Fault → Text
  | .refused why _ => why.message
  | .unknownFramework framework =>
    "Unknown framework " ++ framework.spelling ++ "; expected one of " ++ frameworkNames
  | .settingsNotAnObject => "Settings must be a JSON object"
  | .unknownSetting key => "Unknown setting '" ++ key ++ "'"
  | .invalidSetting key value =>
    "Invalid value " ++ value.spelling ++ " for setting '" ++ key ++ "'"
  | .unknownKind kind => kind.spelling ++ " is not a valid LayerKind"
  | .missingKey key => Text.quoted key
  | .notOperands sign left right =>
    "unsupported operand type(s) for " ++ sign ++ ": '" ++ left.sortName ++ "' and '" ++
      right.sortName ++ "'"
  | .notARepeatCount count =>
    "can't multiply sequence by non-int of type '" ++ count.sortName ++ "'"
  | .notJoined left right =>
    "can only concatenate " ++ left.sortName ++ " (not \"" ++ right.sortName ++ "\") to " ++
      left.sortName
  | .repeatCountTooLarge | .indexTooLarge => "cannot fit 'int' into an index-sized integer"
  | .textTooLong => "repeated string is too long"
  | .noRoom => ""
  | .notAPassCount value =>
    "'" ++ value.sortName ++ "' object cannot be interpreted as an integer"
  | .notACount value =>
    "int() argument must be a string, a bytes-like object or a real number, not '" ++
      value.sortName ++ "'"
  | .notANumeral text =>
    "invalid literal for int() with base 10: " ++
      String.ofList ((Text.quoted text).toList.take maxLiteralLength)
  | .numeralTooLong digits =>
    digitLimit ++ ": value has " ++ Decimal.natText digits ++ " digits" ++ digitLimitHint
  | .nanCount => "cannot convert float NaN to integer"
  | .infiniteCount => "cannot convert float infinity to integer"
  | .divisionByZero => "integer division or modulo by zero"
  | .realDivisionByZero => "float floor division by zero"
  | .noSuchPosition => "list index out of range"
  | .takeFromEmpty => "pop from empty list"
  | .takeOutOfRange => "pop index out of range"
  | .positionTooLarge => "Python int too large to convert to C ssize_t"
  | .wholeTooLarge => "int too large to convert to float"
  | .quotientTooLarge => "integer division result too large for a float"
  | .notAKey value => "unhashable type: '" ++ value.sortName ++ "'"
  | .bodyTooDeep => "maximum recursion depth exceeded"
  | .unwritable => digitLimit ++ digitLimitHint

/-- The status under which a fault is reported; none for those that are not. -/
def status? : Fault → Option Nat
  | .refused .. | .settingsNotAnObject | .unknownSetting _ | .invalidSetting .. => some 400
  | .unknownFramework _ => some 404
  | _ => none

def layerId? : Fault → Option Text
  | .refused _ layerId => layerId
  | _ => none

end Fault

/-- A fault whose message shows a value.  It is not met if the value cannot be written: then its
number is at fault. -/
def Fault.showing (value : Value) (fault : Fault) : Fault :=
  if value.isWritable then fault else .unwritable

theorem Fault.showing_eq {value : Value} (h : value.isWritable = true) (fault : Fault) :
    showing value fault = fault := if_pos h

theorem Fault.showing_eq_unwritable {value : Value} (h : value.isWritable = false)
    (fault : Fault) : showing value fault = .unwritable := if_neg (by simp [h])

/-- A value as plain text, which a number of too many digits has not. -/
def Value.plain (value : Value) : Except Fault Text :=
  if value.isWritable then .ok value.text else .error .unwritable

@[simp] theorem Value.plain_str (s : Text) : (str s).plain = .ok s := rfl

/-- What a value names in a table; a list or an object cannot be looked up. -/
def Value.lookUp {α : Type} (find : String → Option α) (value : Value) :
    Except Fault (Option α) :=
  match value with
  | .list _ | .obj _ => .error (.notAKey value)
  | value => .ok (value.named? find)

end LayerStack
