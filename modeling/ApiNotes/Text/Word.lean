import ApiNotes.Text.Blank
import ApiNotes.Text.WordSet
import ApiNotes.Text.DigitTable

/-!
# Words and digits

A word is a run of letters, digits and numerals of any script and underscores. Identifiers,
keywords and the two halves of a qualified name are words. A digit is a decimal digit of any
script.
-/

namespace ApiNotes.Text

def isPlainWord (c : Char) : Bool :=
  c.isAlphanum || c == '_'

def isWord (c : Char) : Bool :=
  if c.toNat < 128 then isPlainWord c else wordSet.contains c.toNat

/-- The value of a decimal digit. -/
def digitValue? (c : Char) : Option Nat :=
  let code := c.toNat
  (digitZeros.find? fun start => start ≤ code && code < start + 10).map (code - ·)

def isDigit (c : Char) : Bool := (digitValue? c).isSome

/-- The word at the start of a text and what follows it; none where no word starts. -/
def word? (text : Text) : Option (Text × Text) :=
  match text.takeWhile isWord with
  | [] => none
  | c :: more => some (c :: more, text.dropWhile isWord)

/-- Whether a word and a non-word meet between `before` and the start of `rest`; the ends of
a text count as non-words. -/
def isWordEdge (before : Option Char) (rest : Text) : Bool :=
  before.any isWord != rest.head?.any isWord

/-- A piece of a text: a maximal word, or a single character that belongs to no word. -/
inductive Token where
  | word (text : Text)
  | mark (c : Char)
  deriving DecidableEq

/-- A text as the words in it and the characters between them. -/
def tokens (text : Text) : List Token :=
  text.foldr (fun c later =>
    if isWord c then
      match later with
      | .word w :: more => .word (c :: w) :: more
      | more => .word [c] :: more
    else .mark c :: later) []

/-- The qualified names among the tokens of a text: two words joined by a dot, from left to
right and without overlap. -/
def qualifiedNamesOf : List Token → List Text
  | .word owner :: .mark '.' :: .word member :: later =>
    (owner ++ '.' :: member) :: qualifiedNamesOf later
  | _ :: later => qualifiedNamesOf later
  | [] => []

def qualifiedNames (text : Text) : List Text := qualifiedNamesOf (tokens text)

end ApiNotes.Text
