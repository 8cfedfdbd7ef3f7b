import ApiNotes.Disk.Pattern
import ApiNotes.Go.Imports
import ApiNotes.Index.Basic
import ApiNotes.Navigation.Lookup
import ApiNotes.Ordered

/-!
# Searching the text of a project

Where nothing is known of a type, the Go files of the project are searched for a line that
looks like its declaration: `type Name`, or `Name` in a group of type declarations. Files in a
directory named like the package come first.
-/

namespace ApiNotes.Navigation

open Text

/-- Whether `name` stands at the start of a text and a word ends, or starts, right after it;
`before` is the character before the text. -/
def standsAt (name : Text) (before : Option Char) (text : Text) : Bool :=
  match after? name text with
  | some rest => isWordEdge (name.getLast? <|> before) rest
  | none => false

def standsAfterBlanks (name : Text) (before : Option Char) : Text → Bool
  | [] => standsAt name before []
  | c :: rest =>
    standsAt name before (c :: rest) || (isBlank c && standsAfterBlanks name (some c) rest)

/-- Whether a line declares a type, as far as its beginning shows. -/
def declares (type line : Text) : Bool :=
  match after? "type".toList (trimLeft line) with
  | some (c :: rest) => isBlank c && standsAfterBlanks type (some c) rest
  | _ => false

/-- The line from a line on that looks like the declaration of a type; `grouped` inside a
group. -/
def lineOfFrom (type : Text) (grouped : Bool) (number : Nat) : List Text → Option Nat
  | [] => none
  | line :: rest =>
    if Go.isGroupStart "type".toList line then lineOfFrom type true (number + 1) rest
    else if grouped && Go.isGroupEnd line then lineOfFrom type false (number + 1) rest
    else if (if grouped then standsAfterBlanks type none line else declares type line) then
      some number
    else lineOfFrom type grouped (number + 1) rest

def lineOf? (type source : Text) : Option Nat :=
  lineOfFrom type false 1 (source.splitOn '\n')

/-- The directories whose files are not searched. -/
def unsearched : List Text := ["vendor".toList, ".git".toList, "node_modules".toList]

/-- The Go files below a directory, in order of the names on the way to them. -/
def searchedFiles (disk : Disk) (root : Path) : List Path :=
  let found := PathPattern.files disk root [.anyDepth, .named (Glob.read "*.go".toList)]
  let kept := found.filter fun spot => !spot.names.dropLast.any unsearched.contains
  Ordered.sort Path.le (kept.map (·.place))

/-- The files with those in a directory of the given name first. -/
def preferring (directory : Text) (places : List Path) : List Path :=
  let inside := fun (place : Path) => place.dropLast.getLast?.getD [] = directory
  places.filter (fun place => inside place) ++ places.filter fun place => !inside place

/-- The first line in the text of a project that looks like the declaration of a type. -/
def inText? (disk : Disk) (root : Path) (package : Option Text) (type : Text) : Option Site :=
  let files := searchedFiles disk root
  let files := match named? package with
    | some package => preferring package files
    | none => files
  files.findSome? fun place => do
    let line ← lineOf? type (← disk.text? place)
    some {
      name := match named? package with
        | some package => package ++ '.' :: type
        | none => type
      file := Path.fromRoot root place
      line := line
      kind := .matched }

end ApiNotes.Navigation
