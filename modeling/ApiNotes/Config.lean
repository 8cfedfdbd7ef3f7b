import ApiNotes.Note.Nearest
import ApiNotes.Text.Quoted

/-!
# Configuration

The settings of a project, from named fields or from the environment. `Settings.check` complains
first about the style, then about the reach, then about the marker.
-/

namespace ApiNotes

/-- The ways to look for a declaration. -/
inductive NavigationStyle where
  /-- In the document, in the index of the project, then in the text of its files. -/
  | index
  /-- In the document, then in the text of the project's files. -/
  | search
  deriving DecidableEq

namespace NavigationStyle

def text : NavigationStyle → Text
  | .index => "index".toList
  | .search => "search".toList

def all : List NavigationStyle := [.index, .search]

def ofText? (text : Text) : Option NavigationStyle := all.find? fun style => style.text = text

end NavigationStyle

inductive ConfigError where
  | unknownStyle (style : Text)
  /-- A value of this kind was given for the reach, which must be a number. -/
  | reachNotNumber (kind : Text)
  | negativeReach
  | emptyMarker
  /-- The variable `name` of the environment should hold an integer and holds `value`. -/
  | notAnInteger (name value : Text)
  deriving DecidableEq

def ConfigError.message : ConfigError → Text
  | .unknownStyle style =>
    "Unknown navigation style '".toList ++ style ++ "' (expected one of: ".toList ++
      ", ".toList.intercalate (NavigationStyle.all.map (·.text)) ++ ")".toList
  | .reachNotNumber kind => Number.unorderedText ['<'] kind "int".toList
  | .negativeReach => "proximity must be >= 0".toList
  | .emptyMarker => "marker must not be empty".toList
  | .notAnInteger name value =>
    name ++ " must be an integer, got ".toList ++ Text.quoted value

structure Settings where
  root : Text := ['.']
  debug : Bool := false
  marker : Text := defaultMarker
  reach : Number.Given := .ok (.int Note.defaultReach)
  style : Text := NavigationStyle.index.text
  sizeLimit : Number.Given := .ok (.int 500000)

/-- Settings that can be worked with. `sizeLimit` is the most bytes that an indexed file may
have. -/
structure Config where
  root : Text
  debug : Bool
  marker : Text
  reach : Number
  style : NavigationStyle
  sizeLimit : Number.Given
  reach_not_negative : ¬reach < Number.int 0
  marker_ne_nil : marker ≠ []

namespace Settings

def check (settings : Settings) : Except ConfigError Config :=
  match NavigationStyle.ofText? settings.style, settings.reach with
  | none, _ => .error (.unknownStyle settings.style)
  | some _, .error kind => .error (.reachNotNumber kind)
  | some style, .ok reach =>
    if negative : reach < Number.int 0 then .error .negativeReach
    else if marked : settings.marker = [] then .error .emptyMarker
    else .ok {
      root := settings.root
      debug := settings.debug
      marker := settings.marker
      reach := reach
      style := style
      sizeLimit := settings.sizeLimit
      reach_not_negative := negative
      marker_ne_nil := marked }

end Settings

/-! ## The environment -/

abbrev Environment := List (Text × Text)

namespace Environment

/-- The text of a variable, where it is set and not empty. -/
def text? (environment : Environment) (name : Text) : Option Text :=
  (environment.lookup name).filter (· ≠ [])

/-- The integer in a variable, or the standard one where the variable is unset or blank. -/
def integer (environment : Environment) (name : Text) (standard : Int) : Except ConfigError Int :=
  match environment.lookup name with
  | none => .ok standard
  | some value =>
    if Text.trim value = [] then .ok standard
    else (Text.readInteger value).mapError fun _ => .notAnInteger name value

def onValues : List Text := ["1".toList, "true".toList, "yes".toList, "on".toList]

def isOn (environment : Environment) (name : Text) : Bool :=
  onValues.contains (Text.lower (Text.trim ((environment.lookup name).getD [])))

end Environment

/-- The configuration that the environment describes, for a process in `directory`. -/
def Config.ofEnvironment (directory : Text) (environment : Environment) :
    Except ConfigError Config := do
  let reach ← environment.integer "GODOC_PROXIMITY".toList Note.defaultReach
  let sizeLimit ← environment.integer "GODOC_MAX_FILE_SIZE".toList 500000
  Settings.check {
    root := (environment.text? "PROJECT_ROOT".toList).getD directory
    debug := environment.isOn "GODOC_DEBUG".toList
    marker := (environment.text? "GODOC_MARKER".toList).getD defaultMarker
    reach := .ok (.int reach)
    style := (environment.text? "GODOC_NAVIGATION_STYLE".toList).getD NavigationStyle.index.text
    sizeLimit := .ok (.int sizeLimit) }

end ApiNotes
