import ApiNotes.Text.Basic

/-!
# Paths

A place in a tree of directories is the list of names that leads to it from the top. A path
text is either absolute or starts from a directory; `Path.resolve` reads it by its text alone,
and `Path.fromRoot` writes a place as seen from a directory.
-/

namespace ApiNotes

/-- The names on the way from the top to a place. -/
abbrev Path := List Text

namespace Path

def here : Text := ['.']

def up : Text := ['.', '.']

/-- One step from a place, by the text of the name alone. -/
def step (place : Path) (name : Text) : Path :=
  if name = [] || name = here then place
  else if name = up then place.dropLast
  else place ++ [name]

def isAbsolute (text : Text) : Bool := text.head? = some '/'

/-- The place that a path text means, seen from a directory, where every `..` undoes the name
before it. -/
def resolve (directory : Path) (text : Text) : Path :=
  (text.splitOn '/').foldl step (if isAbsolute text then [] else directory)

/-- The names of a place with slashes between them. -/
def join (names : List Text) : Text := ['/'].intercalate names

def text (place : Path) : Text := '/' :: join place

/-- How many names two places have in common from the top on. -/
def shared : Path → Path → Nat
  | a :: place, b :: other => if a = b then shared place other + 1 else 0
  | _, _ => 0

/-- The path text of a place as seen from `root`, with a `..` for each step up. -/
def fromRoot (root place : Path) : Text :=
  let common := shared root place
  match List.replicate (root.length - common) up ++ place.drop common with
  | [] => here
  | names => join names

/-- The order of places: by the first names that differ, a directory before what is in it. -/
def le : Path → Path → Bool
  | [], _ => true
  | _ :: _, [] => false
  | a :: place, b :: other => if a = b then le place other else Text.le a b

end Path

/-- A directory that paths are seen from, as a path text named it. A text that begins with two
slashes, no more, names a place like any other text but keeps both. -/
structure Root where
  place : Path
  doubled : Bool
  deriving DecidableEq

namespace Root

def ofText (directory : Path) (text : Text) : Root where
  place := Path.resolve directory text
  doubled := Text.startsWith "//".toList text && !Text.startsWith "///".toList text

def text (root : Root) : Text := (if root.doubled then ['/'] else []) ++ Path.text root.place

end Root

end ApiNotes
