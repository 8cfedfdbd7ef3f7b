import ApiNotes.Note.Block

namespace ApiNotes

/-- The block to fold and how many of its lines are hidden. -/
structure Fold where
  block : Block
  hidden : Int
  deriving DecidableEq

namespace Fold

/-- The folds of a document: one for each block of more than one line. -/
def ofLines (marker : Text) (lines : List Text) : List Fold :=
  (Block.ofLines marker lines).filterMap fun block =>
    let hidden := block.last - block.first
    if hidden ≤ 0 then none else some ⟨block, hidden⟩

def summary (fold : Fold) : Text := Text.ofInt fold.hidden ++ " swagger annotations".toList

def placeholder (fold : Fold) : Text :=
  " [".toList ++ Text.ofInt fold.hidden ++ " swagger annotations hidden]".toList

end Fold

end ApiNotes
