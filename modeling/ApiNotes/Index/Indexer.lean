import ApiNotes.Disk.Pattern
import ApiNotes.Index.Basic
import ApiNotes.Index.Exclusion
import ApiNotes.Ordered

/-!
# Indexing a project

An indexer knows which files of a project to read and keeps the index made of them. It is
brought up to date as a whole, by `Indexer.build`, or file by file, by `Indexer.refresh` and
`Indexer.drop`. A call that fails leaves no new indexer, so the old one stays as it was.
-/

namespace ApiNotes

inductive IndexError where
  | pattern (error : PatternError)
  | status (error : StatusTooLong)
  /-- A value of this kind was given for the most bytes of a file, which must be a number. -/
  | limitNotNumber (kind : Text)
  /-- A path with a null character, at which there can be nothing. -/
  | nullInPath
  | noIndexToRefresh
  | noIndexToDropFrom
  deriving DecidableEq

def IndexError.message : IndexError → Text
  | .pattern error => error.message
  | .status error => error.message
  | .limitNotNumber kind => Number.unorderedText ['>'] "int".toList kind
  | .nullInPath => "embedded null byte".toList
  | .noIndexToRefresh => "Cannot reindex before initial index() call.".toList
  | .noIndexToDropFrom => "Cannot remove files before initial index() call.".toList

/-- Which files of a project are indexed, and what is known of them so far. -/
structure Indexer where
  root : Root
  patterns : List Text
  excluded : List Text
  sizeLimit : Number.Given
  marker : Text
  index : Option Index

namespace Indexer

/-- The pattern where none is given: every Go file. -/
def standardPatterns : List Text := ["**/*.go".toList]

/-- An indexer without an index; empty lists of patterns mean the standard ones. -/
def start (root : Root) (patterns excluded : List Text) (sizeLimit : Number.Given)
    (marker : Text) : Indexer where
  root := root
  patterns := if patterns = [] then standardPatterns else patterns
  excluded := if excluded = [] then Exclusion.standardPatterns else excluded
  sizeLimit := sizeLimit
  marker := marker
  index := none

def isExcluded (indexer : Indexer) (path : Text) : Bool :=
  Exclusion.isExcluded indexer.excluded path

/-- Whether a file has no more than a number of bytes. -/
def fits (disk : Disk) (limit : Number) (spot : PatternSpot) : Bool :=
  (disk.bytes? spot.place).all fun bytes => ¬limit < Number.int bytes.length

/-- The files that a pattern leads to and that are indexed. -/
def filesOf (indexer : Indexer) (disk : Disk) (pattern : Text) :
    Except IndexError (List PatternSpot) := do
  let pattern ← (PathPattern.read pattern).mapError .pattern
  let found := (pattern.files disk indexer.root.place).filter fun spot =>
    !indexer.isExcluded (Path.fromRoot indexer.root.place spot.place)
  match indexer.sizeLimit with
  | .ok limit => return found.filter (fits disk limit)
  | .error kind => if found.isEmpty then return [] else throw (.limitNotNumber kind)

/-- Spots without those that have the names of the one after them. -/
def once (spots : List PatternSpot) : List PatternSpot :=
  spots.foldr (fun spot later =>
    if later.head?.any (·.names = spot.names) then later else spot :: later) []

/-- The files to index, each once, in the order of their path texts. -/
def discover (indexer : Indexer) (disk : Disk) : Except IndexError (List PatternSpot) := do
  let found ← indexer.patterns.mapM (indexer.filesOf disk)
  return once (found.flatten |> Ordered.sort fun a b =>
    Text.le (Path.join a.names) (Path.join b.names))

def read (indexer : Indexer) (path text : Text) : Except IndexError GoFile :=
  (GoFile.ofSource path indexer.marker text).mapError .status

/-- The files with the one at a spot, which goes by its path from the root. -/
def readSpot (indexer : Indexer) (disk : Disk) (files : Table GoFile) (spot : PatternSpot) :
    Except IndexError (Table GoFile) :=
  let path := Path.fromRoot indexer.root.place spot.place
  match disk.text? spot.place with
  | some text => (indexer.read path text).map (files.put path)
  | none => .ok files

/-- The indexer with a new index of all its files. -/
def build (indexer : Indexer) (disk : Disk) : Except IndexError Indexer := do
  let spots ← indexer.discover disk
  let files ← spots.foldlM (indexer.readSpot disk) []
  return { indexer with index := some (.ofFiles indexer.root files) }

/-- The text at a path text: absolute ones are resolved by their text alone, others are
followed from the root. -/
def textAt? (indexer : Indexer) (disk : Disk) (path : Text) : Except IndexError (Option Text) :=
  if path.contains '\x00' then .error .nullInPath
  else
    .ok (if Path.isAbsolute path then disk.text? (Path.resolve indexer.root.place path)
      else (disk.read indexer.root.place path).toOption)

/-- The path from the root of what a path text means. -/
def pathOf (indexer : Indexer) (path : Text) : Text :=
  Path.fromRoot indexer.root.place (Path.resolve indexer.root.place path)

/-- The indexer with one file read again, or dropped where there is no such file. -/
def refresh (indexer : Indexer) (disk : Disk) (path : Text) : Except IndexError Indexer :=
  match indexer.index with
  | none => .error .noIndexToRefresh
  | some index => do
    let key := indexer.pathOf path
    match ← indexer.textAt? disk path with
    | some text => return { indexer with index := some (index.put key (← indexer.read key text)) }
    | none => return { indexer with index := some (index.erase key) }

/-- The indexer without the file of a path, which is taken as it stands in the index. -/
def drop (indexer : Indexer) (path : Text) : Except IndexError Indexer :=
  match indexer.index with
  | none => .error .noIndexToDropFrom
  | some index => .ok { indexer with index := some (index.erase path) }

end Indexer

end ApiNotes
