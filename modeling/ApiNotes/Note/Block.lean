import ApiNotes.Number.Basic
import ApiNotes.Text.Word

/-!
# Blocks of comment lines

An API operation is documented by a run of `//` comment lines. Its block starts at the first
line of the run that holds a marker word and goes on to the end of the run; it counts only if
one of its lines is an annotation, `// @Word`. A line that is asked for may be any number, and
one between two lines belongs to a block that has both.
-/

namespace ApiNotes

open Text

/-- What follows the two slashes of a comment line. -/
def commentText? (line : Text) : Option Text := after? ['/', '/'] (trimLeft line)

def isComment (line : Text) : Bool := (commentText? line).isSome

/-- What follows the `@` of a comment line that begins with one, blanks aside. -/
def annotationText? (line : Text) : Option Text :=
  match (commentText? line).map trimLeft with
  | some ('@' :: rest) => some rest
  | _ => none

/-- A comment line whose text begins with `@` and a word. -/
def hasKeyword (line : Text) : Bool := ((annotationText? line).bind word?).isSome

/-- A comment line with the marker anywhere in its text. -/
def isMarker (marker line : Text) : Bool := (commentText? line).any (occursIn marker)

def defaultMarker : Text := "godoc".toList

/-- Successive lines of a document, both ends included and the first line numbered 1. -/
structure Block where
  first : Int
  last : Int
  deriving DecidableEq

namespace Block

def contains (block : Block) (line : Int) : Bool := decide (block.first ≤ line ∧ line ≤ block.last)

/-- Whether a number lies between the first and the last line of the block. -/
def covers (block : Block) (line : Number) : Bool :=
  decide (Number.int block.first ≤ line ∧ line ≤ Number.int block.last)

theorem covers_int (block : Block) (line : Int) : block.covers (.int line) = block.contains line := by
  simp only [covers, contains, Number.int_le_int]

/-- A block that a scan has entered: its first line and whether an annotation was seen. -/
structure Entered where
  first : Int
  annotated : Bool

/-- The block that ends before line `number`, when one was entered and has an annotation. -/
def ending (number : Int) : Option Entered → List Block
  | some ⟨first, true⟩ => [⟨first, number - 1⟩]
  | _ => []

/-- The scan at line `number`. -/
def scan (marker : Text) (number : Int) (entered : Option Entered) : List Text → List Block
  | [] => ending number entered
  | line :: rest =>
    if isComment line then
      let entered := match entered with
        | some block => some { block with annotated := block.annotated || hasKeyword line }
        | none => if isMarker marker line then some ⟨number, hasKeyword line⟩ else none
      scan marker (number + 1) entered rest
    else ending number entered ++ scan marker (number + 1) none rest

def ofLines (marker : Text) (lines : List Text) : List Block := scan marker 1 none lines

/-- The first block of an ascending list that covers a line; blocks that start later are not
looked at. -/
def firstCovering? (line : Number) : List Block → Option Block
  | [] => none
  | block :: later =>
    if block.covers line then some block
    else if line < Number.int block.first then none
    else firstCovering? line later

def covering? (marker : Text) (lines : List Text) (line : Number) : Option Block :=
  firstCovering? line (ofLines marker lines)

def at? (marker : Text) (lines : List Text) (line : Int) : Option Block :=
  covering? marker lines (.int line)

end Block

end ApiNotes
