import ApiNotes.Disk.Path
import ApiNotes.Disk.Encoding
import ApiNotes.Text.Quoted

/-!
# Disks

A disk is a tree of directories with files in it, kept as the places of the directories and
the places and bytes of the files. A path text is followed one name at a time, as `Disk.walk`
does: every name but the last must lead to a directory, also before a `..`.
-/

namespace ApiNotes

/-- The directories below the top and the files, by their places. -/
structure Disk where
  directories : List Path
  files : List (Path × List UInt8)

/-- Why there is no text at a path. -/
inductive DiskFault where
  | missing
  /-- A name on the way leads to a file, which has nothing in it by a name. -/
  | notDirectory
  | directory
  deriving DecidableEq

def DiskFault.message (fault : DiskFault) (path : Text) : Text :=
  (match fault with
    | .missing => "[Errno 2] No such file or directory: ".toList
    | .notDirectory => "[Errno 20] Not a directory: ".toList
    | .directory => "[Errno 21] Is a directory: ".toList) ++ Text.quoted path

namespace Disk

def empty : Disk := ⟨[], []⟩

def isDirectory (disk : Disk) (place : Path) : Bool :=
  place = [] || disk.directories.contains place

def bytes? (disk : Disk) (place : Path) : Option (List UInt8) := disk.files.lookup place

def isFile (disk : Disk) (place : Path) : Bool := (disk.bytes? place).isSome

def text? (disk : Disk) (place : Path) : Option Text := (disk.bytes? place).map Encoding.decode

def holds (disk : Disk) (place : Path) : Bool := disk.isDirectory place || disk.isFile place

/-- The places right inside a directory. -/
def entries (disk : Disk) (directory : Path) : List Path :=
  (disk.directories ++ disk.files.map (·.1)).filter fun place =>
    place ≠ [] && place.dropLast = directory

/-- A directory and all directories below it. -/
def directoriesFrom (disk : Disk) (directory : Path) : List Path :=
  directory :: disk.directories.filter fun place =>
    directory.isPrefixOf place && place ≠ directory

/-- The place that names lead to from a place. Every name must start from a directory; nothing
need be at the place itself. -/
def walk (disk : Disk) (place : Path) : List Text → Except DiskFault Path
  | [] => .ok place
  | name :: names =>
    if disk.isDirectory place then disk.walk (place.step name) names
    else .error (if disk.isFile place then .notDirectory else .missing)

/-- The place that a path text leads to from a directory, or from the top. -/
def locate (disk : Disk) (directory : Path) (text : Text) : Except DiskFault Path :=
  disk.walk (if Path.isAbsolute text then [] else directory) (text.splitOn '/')

/-- The text of the file that a path text leads to from a directory, or from the top. -/
def read (disk : Disk) (directory : Path) (text : Text) : Except DiskFault Text := do
  let place ← disk.locate directory text
  match disk.text? place with
  | some text => return text
  | none => throw (if disk.isDirectory place then .directory else .missing)

/-! ## Changes -/

/-- A place and all places above it but the top, from above. -/
def wayTo (place : Path) : List Path :=
  (List.range place.length).map fun n => place.take (n + 1)

/-- The disk with a directory, and those above it, at a place. -/
def makeDirectory (disk : Disk) (place : Path) : Disk :=
  let missing := (wayTo place).filter fun above => !disk.isDirectory above
  { disk with directories := disk.directories ++ missing }

/-- The disk with a file of the given bytes at a place, and the directories above it. -/
def write (disk : Disk) (place : Path) (bytes : List UInt8) : Disk :=
  let disk := disk.makeDirectory place.dropLast
  { disk with files := disk.files.filter (·.1 ≠ place) ++ [(place, bytes)] }

/-- The disk without what is at a place and below it. -/
def delete (disk : Disk) (place : Path) : Disk where
  directories := disk.directories.filter fun other => !place.isPrefixOf other
  files := disk.files.filter fun (other, _) => !place.isPrefixOf other

end Disk

end ApiNotes
