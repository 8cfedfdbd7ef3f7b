import ApiNotes.Note.Reading

namespace ApiNotes

/-- A block and what its annotation lines say. -/
structure Note where
  block : Block
  fields : List Field
  deriving DecidableEq

def Note.references (note : Note) : List Reference := note.fields.flatMap (·.references)

/-- The lines of a document with their numbers, from 1 on. -/
def numbered (lines : List Text) : List (Text × Nat) := lines.zipIdx 1

/-- The lines of a document that belong to a block, with their numbers. -/
def Block.linesOf (block : Block) (lines : List Text) : List (Text × Nat) :=
  (numbered lines).filter fun (_, number) => block.contains number

def Field.ofBlock (block : Block) (lines : List Text) : Except StatusTooLong (List Field) := do
  let fields ← (block.linesOf lines).mapM fun (line, number) => Field.ofLine line number
  return fields.filterMap id

def Note.ofLines (marker : Text) (lines : List Text) : Except StatusTooLong (List Note) :=
  (Block.ofLines marker lines).mapM fun block => do
    return ⟨block, ← Field.ofBlock block lines⟩

end ApiNotes
