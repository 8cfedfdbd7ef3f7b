import ApiNotes.Text.Quoted
import ApiNotes.Text.Word

/-!
# Reading integers

An integer is written with decimal digits of any script, one underscore between two digits
where wanted, an optional sign, and blanks around it, of which the information separators
U+001C to U+001F do not count. A number of more than `digitLimit` digits is refused, leading
zeros included.
-/

namespace ApiNotes.Text

/-- The most digits that a number may be written with. -/
def digitLimit : Nat := 4300

/-- The number that a run of digits spells; other characters are passed over. -/
def numberOf (digits : Text) : Nat :=
  (digits.filterMap digitValue?).foldl (fun n d => 10 * n + d) 0

inductive IntegerError where
  | malformed (text : Text)
  /-- The text has `count` digits, more than the limit. -/
  | tooLong (count : Nat)
  deriving DecidableEq

def tooManyDigits (count : Nat) : Text :=
  "Exceeds the limit (".toList ++ ofNat digitLimit ++
    " digits) for integer string conversion: value has ".toList ++ ofNat count ++
    " digits; use sys.set_int_max_str_digits() to increase the limit".toList

/-- The most characters of a quoted text that are shown where it is no integer. -/
def shownLimit : Nat := 200

/-- What is said about a text that is no integer: its quoted form is cut off after `shownLimit`
characters, quotes and escapes counted, so that a long one lacks its closing quote. -/
def IntegerError.message : IntegerError → Text
  | .malformed text =>
    "invalid literal for int() with base 10: ".toList ++ (quoted text).take shownLimit
  | .tooLong count => tooManyDigits count

/-- Whether single underscores stand between digits, and only there. -/
def underscoresBetween : Text → Bool
  | [] => true
  | ['_'] => false
  | '_' :: '_' :: _ => false
  | _ :: rest => underscoresBetween rest

/-- The number at the start of an unsigned text, which must be all of the text. -/
def readNatural (whole text : Text) : Except IntegerError Nat :=
  let run := text.takeWhile fun c => isDigit c || c == '_'
  let digits := run.filter isDigit
  if text.head? = some '_' || !underscoresBetween run then .error (.malformed whole)
  else if digits.length > digitLimit then .error (.tooLong digits.length)
  else if digits = [] || text.dropWhile (fun c => isDigit c || c == '_') ≠ [] then
    .error (.malformed whole)
  else .ok (numberOf digits)

/-- The blanks that may stand around a number. -/
def isMargin (c : Char) : Bool := isBlank c && !(28 ≤ c.toNat && c.toNat ≤ 31)

def readInteger (text : Text) : Except IntegerError Int :=
  match ((text.dropWhile isMargin).reverse.dropWhile isMargin).reverse with
  | '-' :: rest => (readNatural text rest).map fun n => -(n : Int)
  | '+' :: rest => (readNatural text rest).map Int.ofNat
  | rest => (readNatural text rest).map Int.ofNat

end ApiNotes.Text
