import ApiNotes.Disk.Tree
import ApiNotes.Text.Glob

/-!
# Path patterns

A path pattern names files below a directory, one part for each step of the way: a name, a
glob for names, or `**` for any number of directories. `PathPattern.read` refuses patterns
that are empty, absolute, or have `**` beside other characters.
-/

namespace ApiNotes

inductive PatternStep where
  /-- Any number of directories down, none included. -/
  | anyDepth
  /-- To the entries whose names a glob admits. -/
  | named (glob : Glob)
  /-- To the entry of this name, or up with `..`. -/
  | to (name : Text)
  /-- Nowhere; only a directory can take this step. -/
  | stay
  deriving DecidableEq

/-- The steps from a directory to the files that are meant. -/
abbrev PathPattern := List PatternStep

inductive PatternError where
  | empty
  | absolute
  /-- Stars for directories share a step with other characters. -/
  | mixedDepth
  | noStep
  /-- There is no step before the slash at the end. -/
  | noStepBeforeSlash
  deriving DecidableEq

def PatternError.message : PatternError → Text
  | .empty => "Unacceptable pattern: ''".toList
  | .absolute => "Non-relative patterns are unsupported".toList
  | .mixedDepth => "Invalid pattern: '**' can only be an entire path component".toList
  | .noStep => "tuple index out of range".toList
  | .noStepBeforeSlash => "'_TerminatingSelector' object has no attribute 'select_from'".toList

/-- A place that a pattern leads to, and the names of the steps taken to it. -/
structure PatternSpot where
  place : Path
  names : List Text

namespace PathPattern

def stars : Text := ['*', '*']

def readStep (part : Text) : Except PatternError PatternStep :=
  if part = stars then .ok .anyDepth
  else if Text.occursIn stars part then .error .mixedDepth
  else if part.contains '*' || part.contains '?' || part.contains '[' then
    .ok (.named (Glob.read part))
  else .ok (.to part)

/-- The pattern that a text spells. A slash at the end asks for directories. -/
def read (text : Text) : Except PatternError PathPattern :=
  if text = [] then .error .empty
  else if Path.isAbsolute text then .error .absolute
  else
    let slashed : Bool := text.getLast? = some '/'
    match (text.splitOn '/').filter fun part => part ≠ [] && part ≠ Path.here with
    | [] => .error (if slashed then .noStepBeforeSlash else .noStep)
    | parts => do
      let steps ← parts.mapM readStep
      return steps ++ if slashed then [.stay] else []

/-- Where a step leads from a spot. -/
def follow (disk : Disk) (spot : PatternSpot) (step : PatternStep) : List PatternSpot :=
  if !disk.isDirectory spot.place then []
  else
    match step with
    | .anyDepth =>
      (disk.directoriesFrom spot.place).map fun place =>
        ⟨place, spot.names ++ place.drop spot.place.length⟩
    | .named glob =>
      (disk.entries spot.place).filterMap fun place =>
        match place.getLast? with
        | some name => if glob.admits name then some ⟨place, spot.names ++ [name]⟩ else none
        | none => none
    | .to name =>
      let place := spot.place.step name
      if disk.holds place then [⟨place, spot.names ++ [name]⟩] else []
    | .stay => [spot]

/-- The files that a pattern names, seen from a directory. -/
def files (disk : Disk) (directory : Path) (pattern : PathPattern) : List PatternSpot :=
  (pattern.foldl (fun spots step => spots.flatMap fun spot => follow disk spot step)
    [⟨directory, []⟩]).filter fun spot => disk.isFile spot.place

end PathPattern

end ApiNotes
