import ApiNotes.Text.Basic

/-!
# Blanks

The white space of any script, and the operations that remove it from the ends of a text or
split a text at it. Zero-width spaces and byte order marks are not blank.
-/

namespace ApiNotes.Text

/-- Tabs, line and page breaks, separators and spaces of every width above zero. -/
def isBlank (c : Char) : Bool :=
  let code := c.toNat
  (9 ≤ code && code ≤ 13) || (28 ≤ code && code ≤ 32) || code == 0x85 || code == 0xA0 ||
    code == 0x1680 || (0x2000 ≤ code && code ≤ 0x200A) || code == 0x2028 || code == 0x2029 ||
    code == 0x202F || code == 0x205F || code == 0x3000

def trimLeft (text : Text) : Text := text.dropWhile isBlank

def trimRight (text : Text) : Text := (text.reverse.dropWhile isBlank).reverse

def trim (text : Text) : Text := trimRight (trimLeft text)

/-- What follows one or more leading blanks. -/
def afterBlanks? (text : Text) : Option Text :=
  match text with
  | [] => none
  | c :: rest => if isBlank c then some (trimLeft rest) else none

def words (text : Text) : List Text := piecesBetween isBlank text

end ApiNotes.Text
