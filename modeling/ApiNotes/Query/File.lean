import ApiNotes.Config
import ApiNotes.Navigation.Chain
import ApiNotes.Note.Fold
import ApiNotes.Note.Highlight

namespace ApiNotes

structure NoteSize where
  block : Block
  fields : Nat
  references : Nat
  deriving DecidableEq

/-- A route of an API, the line that names it and the summary of the note that it is in. -/
structure Endpoint where
  path : Text
  methods : List Text
  line : Int
  summary : Option Text
  deriving DecidableEq

/-- Why a question has no answer. -/
inductive Miss where
  | noSuchFile (path : Text)
  /-- The line and the column are kept as they are shown. -/
  | noReference (line column : Text)
  | noDefinition (name : Text)
  /-- There is no way to look for declarations. -/
  | noNavigation
  | noSuchType (name : Text)
  deriving DecidableEq

def Miss.message : Miss → Text
  | .noSuchFile path => "Error: file '".toList ++ path ++ "' not found in index".toList
  | .noReference line column =>
    "no model reference near line ".toList ++ line ++ ", column ".toList ++ column
  | .noDefinition name => "definition of '".toList ++ name ++ "' not found".toList
  | .noNavigation => "navigation is not configured".toList
  | .noSuchType name => "type '".toList ++ name ++ "' not found".toList

namespace Note

def size (note : Note) : NoteSize := ⟨note.block, note.fields.length, note.references.length⟩

/-- The text of the first summary of a note. -/
def summary? (note : Note) : Option Text :=
  (note.fields.find? (·.keyword = .tag .summary)).map (·.value)

def endpoints (note : Note) : List Endpoint :=
  note.fields.filterMap fun field =>
    match field.detail with
    | .router path methods => some ⟨path, methods, field.line, note.summary?⟩
    | _ => none

end Note

/-- The ways to look for declarations, and where. -/
structure Navigator where
  chain : List Navigation.Resolver
  surroundings : Navigation.Surroundings

namespace GoFile

def noteSizes (file : GoFile) : List NoteSize := file.notes.map (·.size)

def notesCovering (file : GoFile) (line : Number) : List Note :=
  file.notes.filter (·.block.covers line)

def notesAt (file : GoFile) (line : Int) : List Note := file.notesCovering (.int line)

/-- The declaration of the type that a reference names. -/
def definitionOf (file : GoFile) (navigator : Navigator) (reference : Reference) :
    Except Miss Navigation.Definition :=
  match Navigation.define? navigator.chain navigator.surroundings reference.name file with
  | some definition => .ok definition
  | none => .error (.noDefinition reference.name)

def spans (file : GoFile) (config : Config) : Except StatusTooLong (List Span) :=
  highlight config.marker file.lines

def folds (file : GoFile) (config : Config) : List Fold := Fold.ofLines config.marker file.lines

/-- The fold of the block that covers a line, if that has one. -/
def foldsCovering (file : GoFile) (config : Config) (line : Number) : List Fold :=
  match Block.covering? config.marker file.lines line with
  | some block => (file.folds config).filter (·.block.first = block.first)
  | none => []

def foldsAt (file : GoFile) (config : Config) (line : Int) : List Fold :=
  file.foldsCovering config (.int line)

def endpoints (file : GoFile) : List Endpoint := file.notes.flatMap (·.endpoints)

end GoFile

end ApiNotes
