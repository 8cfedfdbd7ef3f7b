import ApiNotes.Note.Analysis

/-!
# The reference at a position

A position is a row and a column. The reference meant is the one under the column or, failing
that, the nearest on the same row within a given reach. Columns and reaches are integers or, for
columns between two characters, numbers; `nearestFrom_int` says that integers give the same
answer as either.
-/

namespace ApiNotes

section

variable {Column : Type} [IntCast Column] [LE Column] [LT Column] [DecidableLE Column]
  [DecidableLT Column] [Sub Column]

/-- How far a column is from the nearest character of a reference; nothing inside it. -/
def Reference.distance (reference : Reference) (column : Column) : Column :=
  if column < (reference.start : Column) then (reference.start : Column) - column
  else if (reference.stop : Column) ≤ column then column - ((reference.stop - 1 : Int) : Column)
  else ((0 : Int) : Column)

namespace Note

/-- The references of a row in the notes whose blocks contain it, in order. -/
def referencesAt (notes : List Note) (row : Int) : List Reference :=
  (notes.filter (·.block.contains row)).flatMap fun note =>
    note.references.filter fun reference => reference.line = row

variable [BEq Column]

/-- The first reference under the column, else the first of the nearest ones of those closer
than `bound`, else `closest`. -/
def nearestFrom (column bound : Column) (closest : Option Reference) :
    List Reference → Option Reference
  | [] => closest
  | reference :: later =>
    let distance := reference.distance column
    if distance == ((0 : Int) : Column) then some reference
    else if distance < bound then nearestFrom column distance (some reference) later
    else nearestFrom column bound closest later

variable [Add Column]

def nearestOf (references : List Reference) (column reach : Column) : Option Reference :=
  nearestFrom column (reach + ((1 : Int) : Column)) none references

/-- The reference at a position, or the nearest one on its row at most `reach` columns away. -/
def nearest? (notes : List Note) (row : Int) (column reach : Column) : Option Reference :=
  nearestOf (referencesAt notes row) column reach

end Note

end

theorem Reference.distance_int (reference : Reference) (column : Int) :
    reference.distance (Number.int column) = Number.int (reference.distance column) := by
  simp only [distance, IntCast.intCast, Int.cast, Number.int_lt_int, Number.int_le_int]
  split
  · rfl
  · split <;> rfl

namespace Note

theorem nearestFrom_int (column bound : Int) (closest : Option Reference)
    (references : List Reference) :
    nearestFrom (Number.int column) (Number.int bound) closest references =
      nearestFrom column bound closest references := by
  induction references generalizing bound closest with
  | nil => rfl
  | cons reference later ih =>
    simp only [nearestFrom, Reference.distance_int, ih]
    simp only [IntCast.intCast, Int.cast, Number.int_lt_int, Number.int_beq_int]

theorem nearestOf_int (references : List Reference) (column reach : Int) :
    nearestOf references (Number.int column) (Number.int reach) =
      nearestOf references column reach :=
  nearestFrom_int column (reach + 1) none references

def defaultReach : Int := 10

end Note

end ApiNotes
