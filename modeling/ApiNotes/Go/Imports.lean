import ApiNotes.Text.Word

/-!
# Package clause and imports

The package of a file is named by its first `package` line. Imports stand on `import` lines of
their own, or one to a line in a group, which begins with `import (` and ends with a line that
begins with `)`.
-/

namespace ApiNotes.Go

open Text

/-- What follows a word and the blanks after it at the start of a line, blanks aside. -/
def afterClauseWord? (word line : Text) : Option Text :=
  (after? word (trimLeft line)).bind afterBlanks?

/-- Whether a line begins a group: the word and an opening parenthesis, blanks aside. -/
def isGroupStart (word line : Text) : Bool :=
  match (after? word (trimLeft line)).map trimLeft with
  | some ('(' :: _) => true
  | _ => false

def isGroupEnd (line : Text) : Bool := (trim line).head? = some ')'

def packageOfLine? (line : Text) : Option Text :=
  ((afterClauseWord? "package".toList line).bind word?).map (·.1)

/-- The package that a file names first. -/
def packageOf? (lines : List Text) : Option Text := lines.findSome? packageOfLine?

/-- An import: the path of a package, the name given to it, if any, and the line. -/
structure Import where
  path : Text
  name : Option Text
  line : Nat
  deriving DecidableEq

def Import.directory (spec : Import) : Text := afterLast '/' spec.path

/-- The name by which the importing file refers to the package. -/
def Import.localName (spec : Import) : Text :=
  match spec.name with
  | some name => if name = ['.'] || name = ['_'] then spec.directory else name
  | none => spec.directory

/-- A path between double quotes at the start of a text. -/
def importPath? : Text → Option Text
  | '"' :: rest =>
    let path := rest.takeWhile (· ≠ '"')
    if path ≠ [] && rest.contains '"' then some path else none
  | _ => none

/-- A dot or a word at the start of a text, and what follows the blanks after it. -/
def importName? (text : Text) : Option (Text × Text) := do
  let (name, rest) ← match text with
    | '.' :: rest => some (['.'], rest)
    | text => word? text
  return (name, ← afterBlanks? rest)

/-- The import that a text begins with: a path, or a name and a path. -/
def importSpec? (line : Nat) (text : Text) : Option Import :=
  match importPath? text with
  | some path => some ⟨path, none, line⟩
  | none => do
    let (name, rest) ← importName? text
    return ⟨← importPath? rest, some name, line⟩

/-- The imports from a line on; `grouped` inside a group. -/
def importsFrom (grouped : Bool) (number : Nat) : List Text → List Import
  | [] => []
  | line :: rest =>
    let text := trim line
    if grouped then
      if isGroupEnd line then importsFrom false (number + 1) rest
      else (importSpec? number text).toList ++ importsFrom true (number + 1) rest
    else
      match (afterClauseWord? "import".toList text).bind (importSpec? number) with
      | some spec => spec :: importsFrom false (number + 1) rest
      | none => importsFrom (isGroupStart "import".toList text) (number + 1) rest

def importsOf (lines : List Text) : List Import := importsFrom false 1 lines

end ApiNotes.Go
