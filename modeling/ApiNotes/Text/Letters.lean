import ApiNotes.Text.Basic
import ApiNotes.Text.CaseTable

/-!
# Upper and lower case

The full case mappings: a character may become several, and a capital sigma at the end of a
word becomes the final form.
-/

namespace ApiNotes.Text

/-- What a table of runs with exceptions makes of one character. -/
def mapCase (special : List (Nat × List Nat)) (runs : List CaseRun) (c : Char) : Text :=
  match special.lookup c.toNat with
  | some codes => codes.map Char.ofNat
  | none => [((runs.findSome? (·.image? c.toNat)).map Char.ofNat).getD c]

/-- Whether the nearest character that case rules do not look past has case. -/
def touchesCased (text : Text) : Bool :=
  (text.dropWhile fun c => caseIgnorableSet.contains c.toNat).head?.any
    fun c => casedSet.contains c.toNat

/-- The text in lower case; `before` is what precedes it, last character first. -/
def lowerAfter (before : Text) : Text → Text
  | [] => []
  | c :: rest =>
    (if c = 'Σ' then [if touchesCased before && !touchesCased rest then 'ς' else 'σ']
     else mapCase lowerSpecial lowerRuns c) ++ lowerAfter (c :: before) rest

def lower (text : Text) : Text := lowerAfter [] text

def upper (text : Text) : Text := text.flatMap (mapCase upperSpecial upperRuns)

end ApiNotes.Text
