import ApiNotes.Query.Answer
import ApiNotes.Text.Integer

/-!
# Reading arguments

Arguments are named values of any kind. A value of the wrong kind is refused only where it is
put to use: a line when there is a block to compare it with, a pattern when there is a text to
match.
-/

namespace ApiNotes

abbrev Arguments := List (Text × Value)

/-- Why an argument cannot be used. -/
inductive ArgumentError where
  | missing (name : Text)
  | integer (error : Text.IntegerError)
  | notInteger (kind : Text)
  /-- A number without bounds is no integer. -/
  | unbounded
  /-- What is no number at all is no integer either. -/
  | undefined
  /-- Values of these kinds have no order. -/
  | unordered (symbol left right : Text)
  | notPath (kind : Text)
  | notPathEnd (kind : Text)
  | notKey (kind : Text)
  | noParts (kind : Text)
  /-- A number that is no integer does not count items. -/
  | notCount
  deriving DecidableEq

def ArgumentError.message : ArgumentError → Text
  | .missing name => Text.quoted name
  | .integer error => error.message
  | .notInteger kind =>
    "int() argument must be a string, a bytes-like object or a real number, not '".toList ++ kind ++
      ['\x27']
  | .unbounded => "cannot convert float infinity to integer".toList
  | .undefined => "cannot convert float NaN to integer".toList
  | .unordered symbol left right => Number.unorderedText symbol left right
  | .notPath kind => "expected str, bytes or os.PathLike object, not ".toList ++ kind
  | .notPathEnd kind => "endswith first arg must be str or a tuple of str, not ".toList ++ kind
  | .notKey kind => "unhashable type: '".toList ++ kind ++ ['\x27']
  | .noParts kind => "argument of type '".toList ++ kind ++ "' is not iterable".toList
  | .notCount => "slice indices must be integers or None or have an __index__ method".toList

namespace Value

/-- The number that a value counts as, or its kind. -/
def given (value : Value) : Number.Given :=
  match value.number? with
  | some number => .ok number
  | none => .error value.kindText

/-- The integer that a value stands for. -/
def readInteger : Value → Except ArgumentError Int
  | .int value => .ok value
  | .bool value => .ok value.toNat
  | .double .undefined => .error .undefined
  | .double value =>
    match value.truncate? with
    | some value => .ok value
    | none => .error .unbounded
  | .text written => (Text.readInteger written).mapError .integer
  | value => .error (.notInteger value.kindText)

end Value

/-- How a line and a column are taken. -/
inductive PositionReading where
  /-- As the integers that they stand for. -/
  | integers
  /-- As they are. -/
  | plain
  deriving DecidableEq

def PositionReading.value : PositionReading → Value → Except ArgumentError Value
  | .integers, value => value.readInteger.map .int
  | .plain, value => .ok value

namespace Arguments

/-- The value of an argument that must be given. -/
def require (arguments : Arguments) (name : String) : Except ArgumentError Value :=
  match arguments.lookup name.toList with
  | some value => .ok value
  | none => .error (.missing name.toList)

/-- The line that a question is limited to, if it is. -/
def line? (arguments : Arguments) : Option Number.Given :=
  match arguments.lookup "line".toList with
  | none | some .null => none
  | some value => some value.given

def position (reading : PositionReading) (arguments : Arguments) :
    Except ArgumentError (Value × Value) := do
  let line ← reading.value (← arguments.require "line")
  let column ← reading.value (← arguments.require "column")
  return (line, column)

/-- The glob that the arguments give, to be matched with `texts`. -/
def pattern (arguments : Arguments) (texts : List Text) : Except ArgumentError (Option Text) :=
  match arguments.lookup "pattern".toList with
  | some (.text text) => .ok (some text)
  | some value =>
    if value.isGiven && !texts.isEmpty then .error (.notPath value.kindText) else .ok none
  | none => .ok none

def limit (arguments : Arguments) : Except ArgumentError Int :=
  match arguments.lookup "max_results".toList with
  | none => .ok 0
  | some (.int value) => .ok value
  | some (.bool value) => .ok value.toNat
  | some (.double value) => if Number.int 0 < .double value then .error .notCount else .ok 0
  | some value => .error (.unordered ['>'] value.kindText "int".toList)

/-- The file that a value names in an index. -/
def fileIn (index : Index) : Value → Except ArgumentError (Except Miss GoFile)
  | .text path =>
    .ok (match index.file? path with
      | some file => .ok file
      | none => .error (.noSuchFile path))
  | .list _ => .error (.notKey "list".toList)
  | .object _ => .error (.notKey "dict".toList)
  | value =>
    if index.files.isEmpty then .ok (.error (.noSuchFile value.shown))
    else .error (.notPathEnd value.kindText)

def isDot : Value → Bool
  | .text text => text = ['.']
  | _ => false

/-- The declarations of the type that a value names in an index. -/
def sitesIn (index : Index) : Value → Except ArgumentError (Except Miss (List Site))
  | .text name => .ok (index.findType name)
  | .list items =>
    if items.any isDot then .error (.notKey "list".toList)
    else .ok (.error (.noSuchType (Value.list items).shown))
  | .object members =>
    if members.any fun (name, _) => name = ['.'] then .error (.notKey "dict".toList)
    else .ok (.error (.noSuchType (Value.object members).shown))
  | value => .error (.noParts value.kindText)

end Arguments

end ApiNotes
