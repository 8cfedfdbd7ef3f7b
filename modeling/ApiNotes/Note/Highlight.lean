import ApiNotes.Note.Analysis
import ApiNotes.Ordered

/-!
# Highlighting

Spans of columns, each with the name of the group that an editor colours it by. The parts of a
field are found by scanning its line anew: the scan for a keyword takes the first place of the
line where the keyword and all that must follow it stand.
-/

namespace ApiNotes

open Text

/-! ## Groups -/

inductive SpanGroup where
  /-- A first line of a block, from its slashes on. -/
  | markerLine
  /-- The slashes of any other line. -/
  | comment
  /-- An annotation's keyword with its `@`. -/
  | keyword (keyword : Keyword)
  | status
  /-- The braces after a status and what is in them. -/
  | object
  | paramName
  | paramLocation
  | paramType
  | paramRequired
  | routePath
  /-- A variable of a route's path, with its braces. -/
  | routeVariable
  /-- The methods of a route, with their brackets. -/
  | routeMethods
  | securityScheme
  /-- A description with its quotes. -/
  | description
  | reference (origin : Origin) (level : Nat)
  deriving DecidableEq

/-- The deepest nesting level with a group of its own. -/
def deepestGroupLevel : Int := 3

def referenceGroupText (origin : Text) (level : Int) : Text :=
  "model_reference.".toList ++ origin ++ ".l".toList ++ ofInt (min level deepestGroupLevel)

def SpanGroup.text : SpanGroup → Text
  | .markerLine => "godoc_line".toList
  | .comment => "comment".toList
  | .keyword word => "keyword.".toList ++ word.kindText
  | .status => "status_code".toList
  | .object => "type_keyword".toList
  | .paramName => "param_name".toList
  | .paramLocation => "param_location".toList
  | .paramType => "param_type".toList
  | .paramRequired => "param_required".toList
  | .routePath => "router_path".toList
  | .routeVariable => "router_path_var".toList
  | .routeMethods => "router_method".toList
  | .securityScheme => "security_scheme".toList
  | .description => "description_text".toList
  | .reference origin level => referenceGroupText origin.text level

/-- The columns from `start` up to, not including, `stop` of a line, and what they are. -/
structure Span where
  line : Int
  start : Int
  stop : Int
  group : SpanGroup
  deriving DecidableEq

/-- The order of spans: by line, then by start, then by end. -/
def Span.le (a b : Span) : Bool :=
  decide (a.line < b.line ∨ a.line = b.line ∧
    (a.start < b.start ∨ a.start = b.start ∧ a.stop ≤ b.stop))

/-! ## Parts of a line -/

/-- A stretch of a line: how many characters precede it, and its own text. -/
structure Part where
  start : Nat
  text : Text

def Part.span (part : Part) (number : Int) (group : SpanGroup) : Span :=
  ⟨number, part.start, part.start + part.text.length, group⟩

/-- The first result of a scan that is tried at every place of a text, the first one being
`place` characters into the line. -/
def firstFrom {α : Type} (scan : Nat → Text → Option α) (place : Nat) : Text → Option α
  | [] => scan place []
  | c :: rest =>
    match scan place (c :: rest) with
    | some result => some result
    | none => firstFrom scan (place + 1) rest

/-- The leading characters that satisfy `p`, at least one, and what follows them. -/
def run? (p : Char → Bool) (text : Text) : Option (Text × Text) :=
  match text.takeWhile p with
  | [] => none
  | c :: more => some (c :: more, text.dropWhile p)

def blanks? (text : Text) : Option (Text × Text) := run? isBlank text

/-- A text in the given brackets, with them, at the start of `text`, and what follows it. -/
def bracketed? (opening closing : Char) (text : Text) : Option (Text × Text) :=
  match text with
  | [] => none
  | c :: more =>
    if c = opening && more.contains closing then
      some (c :: more.takeWhile (· ≠ closing) ++ [closing], (more.dropWhile (· ≠ closing)).drop 1)
    else none

/-- The keyword with its `@` at the start of a text. -/
def keywordPart? (place : Nat) (text : Text) : Option Part :=
  match text with
  | '@' :: more => (word? more).map fun (word, _) => ⟨place, '@' :: word⟩
  | _ => none

/-- The text after `@` and the keyword and the blanks that must follow, and its place. -/
def afterKeyword? (keyword : Keyword) (place : Nat) (text : Text) : Option (Nat × Text) := do
  let lead := '@' :: keyword.text
  let (gap, rest) ← blanks? (← after? lead text)
  some (place + lead.length + gap.length, rest)

/-- The status and the braces of a response. -/
def responseSpots? (place : Nat) (text : Text) : Option (Part × Part) := do
  let (place, text) ←
    (afterKeyword? (.outcome .success) place text <|> afterKeyword? (.outcome .failure) place text)
  let (digits, more) ← run? isDigit text
  let (gap, more) ← blanks? more
  let (object, _) ← bracketed? '{' '}' more
  some (⟨place, digits⟩, ⟨place + digits.length + gap.length, object⟩)

/-- The truth value at the start of a text that ends where a word ends. -/
def flagPart? (place : Nat) (text : Text) : Option Part := do
  let (gap, more) ← blanks? text
  let flag ← ["true".toList, "false".toList].find? fun flag =>
    (after? flag more).any (isWordEdge flag.getLast?)
  some ⟨place + gap.length, flag⟩

structure ParamSpots where
  name : Part
  location : Part
  type : Option Part
  required : Option Part

/-- The parts of a parameter: name and location, a type of characters that are neither blank
nor a quote, and a truth value. -/
def paramSpots? (place : Nat) (text : Text) : Option ParamSpots := do
  let (place, text) ← afterKeyword? .param place text
  let (name, more) ← run? (fun c => !isBlank c) text
  let (gap, more) ← blanks? more
  let (location, more) ← run? (fun c => !isBlank c) more
  let locationPlace := place + name.length + gap.length
  let afterLocation := locationPlace + location.length
  let type := do
    let (gap, more) ← blanks? more
    let (type, more) ← run? (fun c => !isBlank c && c ≠ '"') more
    some (Part.mk (afterLocation + gap.length) type, more)
  let required := match type with
    | some (part, more) => flagPart? (part.start + part.text.length) more
    | none => flagPart? afterLocation more
  some ⟨⟨place, name⟩, ⟨locationPlace, location⟩, type.map (·.1), required⟩

/-- The path of a route, up to a blank or bracket, and its methods in brackets. -/
def routeSpots? (place : Nat) (text : Text) : Option (Part × Option Part) := do
  let (place, text) ← afterKeyword? .router place text
  let (path, more) ← run? (fun c => !isBlank c && c ≠ '[') text
  let methods := do
    let (gap, more) ← blanks? more
    let (methods, _) ← bracketed? '[' ']' more
    some (Part.mk (place + path.length + gap.length) methods)
  some (⟨place, path⟩, methods)

/-- The variables of a path: the texts in braces, from left to right. `skip` characters
belong to a variable already found. -/
def variablesFrom (skip place : Nat) : Text → List Part
  | [] => []
  | c :: rest =>
    match skip with
    | skip + 1 => variablesFrom skip (place + 1) rest
    | 0 =>
      match bracketed? '{' '}' (c :: rest) with
      | some (braced, _) => ⟨place, braced⟩ :: variablesFrom (braced.length - 1) (place + 1) rest
      | none => variablesFrom 0 (place + 1) rest

def schemePart? (place : Nat) (text : Text) : Option Part := do
  let (place, text) ← afterKeyword? .security place text
  let (scheme, _) ← word? text
  some ⟨place, scheme⟩

def quotedPart? (place : Nat) (text : Text) : Option Part :=
  (bracketed? '"' '"' text).map fun (quoted, _) => ⟨place, quoted⟩

/-! ## Spans -/

namespace Field

/-- The spans of the parts that belong to a field's keyword. -/
def detailSpans (field : Field) (line : Text) : List Span :=
  let span (group : SpanGroup) (part : Part) : Span := part.span field.line group
  match field.detail with
  | .response .. =>
    match firstFrom responseSpots? 0 line with
    | some (status, object) => [span .status status, span .object object]
    | none => []
  | .param .. =>
    match firstFrom paramSpots? 0 line with
    | some spots =>
      [span .paramName spots.name, span .paramLocation spots.location] ++
        (spots.type.map (span .paramType)).toList ++
        (spots.required.map (span .paramRequired)).toList
    | none => []
  | .router .. =>
    match firstFrom routeSpots? 0 line with
    | some (path, methods) =>
      span .routePath path :: (variablesFrom 0 path.start path.text).map (span .routeVariable) ++
        (methods.map (span .routeMethods)).toList
    | none => []
  | .security _ => ((firstFrom schemePart? 0 line).map (span .securityScheme)).toList
  | .tag _ => []

def spans (field : Field) (line : Text) : List Span :=
  let keyword := (firstFrom keywordPart? 0 line).map (·.span field.line (.keyword field.keyword))
  let description := do
    guard field.description.isSome
    return (← firstFrom quotedPart? 0 line).span field.line .description
  keyword.toList ++ field.detailSpans line ++ description.toList ++
    field.references.map fun reference =>
      ⟨field.line, reference.start, reference.stop, .reference reference.origin reference.level⟩

end Field

/-- The span of the slashes of a line, which on the first line of a block goes on to its end. -/
def Block.commentSpan? (block : Block) (line : Text) (number : Int) : Option Span :=
  (find? ['/', '/'] line).map fun place =>
    if number = block.first then ⟨number, place, line.length, .markerLine⟩
    else ⟨number, place, place + 2, .comment⟩

/-- The spans of a note in a document: those of its lines, then those of its fields. -/
def Note.spans (note : Note) (lines : List Text) : List Span :=
  ((note.block.linesOf lines).filterMap fun (line, number) => note.block.commentSpan? line number) ++
    note.fields.flatMap fun field => field.spans (lines[(field.line - 1).toNat]?.getD [])

/-- The spans of a document, in order of their places. -/
def highlight (marker : Text) (lines : List Text) : Except StatusTooLong (List Span) := do
  let notes ← Note.ofLines marker lines
  return Ordered.sort Span.le (notes.flatMap (·.spans lines))

end ApiNotes
