import ApiNotes.Disk.Path
import ApiNotes.Text.Glob

/-!
# Excluded paths

A path is left out of an index if an exclude pattern admits it as a whole, where `*` passes
over slashes too, or if one of the directories on it has the name that remains of the pattern
without its `**` steps and outer slashes. So `**/vendor/**` excludes what is below a directory
`vendor` at any depth.
-/

namespace ApiNotes

namespace Exclusion

/-- The search behind `remove`; `skip` characters belong to an occurrence already found. -/
def removeFrom (piece : Text) (skip : Nat) : Text → Text
  | [] => []
  | c :: rest =>
    match skip with
    | skip + 1 => removeFrom piece skip rest
    | 0 =>
      if Text.startsWith piece (c :: rest) then removeFrom piece (piece.length - 1) rest
      else c :: removeFrom piece 0 rest

/-- A text without the occurrences of `piece`, found from left to right. -/
def remove (piece text : Text) : Text := removeFrom piece 0 text

def stripSlashes (text : Text) : Text :=
  ((text.dropWhile (· = '/')).reverse.dropWhile (· = '/')).reverse

/-- The name of a directory that a pattern excludes. -/
def directoryName (pattern : Text) : Text :=
  stripSlashes (remove "/**".toList (remove "**/".toList pattern))

def excludes (pattern path : Text) : Bool :=
  (Glob.read pattern).admits path || (path.splitOn '/').dropLast.contains (directoryName pattern)

def isExcluded (patterns : List Text) (path : Text) : Bool := patterns.any (excludes · path)

/-- The patterns where none are given: other people's code, version control and test data. -/
def standardPatterns : List Text :=
  ["**/vendor/**".toList, "**/node_modules/**".toList, "**/.git/**".toList,
    "**/testdata/**".toList]

end Exclusion

end ApiNotes
