import ApiNotes.Go.Types
import ApiNotes.Note.Analysis

namespace ApiNotes

/-- What is known of one file. -/
structure GoFile where
  name : Text
  lines : List Text
  package : Option Text
  imports : List Go.Import
  types : List Go.TypeDecl
  notes : List Note
  deriving DecidableEq

namespace GoFile

/-- The name of a file whose text came from nowhere in particular. -/
def unnamed : Text := "<source>".toList

def ofSource (name marker source : Text) : Except StatusTooLong GoFile := do
  let lines := source.splitOn '\n'
  return {
    name := name
    lines := lines
    package := Go.packageOf? lines
    imports := Go.importsOf lines
    types := Go.typesOf lines
    notes := ← Note.ofLines marker lines }

/-- A type's name as other packages write it, or the bare name in a file without package. -/
def qualify (file : GoFile) (type : Text) : Text :=
  match file.package with
  | some package => package ++ '.' :: type
  | none => type

end GoFile

end ApiNotes
