import ApiNotes.Note.Block
import ApiNotes.Note.Field
import ApiNotes.Text.Integer
import ApiNotes.Text.Letters

/-!
# Reading annotation lines

The grammar of an annotation line, `// @Keyword rest`, where the rest depends on the keyword:

* `@Success 200 {object} package.Type "description"`, and the same for `@Failure`;
* `@Param name location type required "description"`;
* `@Router /path/{id} [get,post]`;
* `@Security Scheme`;
* any text after `@Summary`, `@Description`, `@Tags`, `@Accept` and `@Produce`.

A line that does not fit yields no field. `Field.ofLine` fails only on a status code with more
digits than a number may have.
-/

namespace ApiNotes

open Text

/-! ## Parts of a line -/

/-- How many brackets are open before a column, closing ones in excess not counted. -/
def nestingLevel (line : Text) (column : Int) : Nat :=
  let lead := before column line
  lead.count '[' - lead.count ']'

/-- A text that is one line, without the line feed at its end. -/
def singleLine? (text : Text) : Option Text :=
  let body := if text.getLast? = some '\n' then text.dropLast else text
  if body.contains '\n' then none else some body

/-- The keyword of an annotation line and the rest of the line without blanks around it. -/
def keywordAndRest? (line : Text) : Option (Text × Text) := do
  let (keyword, more) ← word? (← annotationText? line)
  let rest ← singleLine? (trimLeft more)
  some (keyword, trimRight rest)

/-- What follows the opening quote of a text that begins with blanks and a quote. -/
def afterOpeningQuote? (text : Text) : Option Text :=
  match afterBlanks? text with
  | some ('"' :: more) => some more
  | _ => none

/-- The text before the first blanks that a quote follows, and the text after that quote. -/
def cutAtQuote? : Text → Option (Text × Text)
  | [] => none
  | c :: rest =>
    match afterOpeningQuote? (c :: rest) with
    | some more => some ([], more)
    | none => (cutAtQuote? rest).map fun (lead, more) => (c :: lead, more)

/-- A description without the blanks and the one quote that may end it. -/
def unquoteEnd (text : Text) : Text :=
  let body := trimRight text
  if body.getLast? = some '"' then body.dropLast else body

def stripQuotes (text : Text) : Text :=
  ((text.dropWhile (· = '"')).reverse.dropWhile (· = '"')).reverse

/-- The value of an annotation and the quoted description at its end. -/
def splitDescription (text : Text) : Text × Option Text :=
  match cutAtQuote? text with
  | some (lead, more) => (trim lead, some (unquoteEnd more))
  | none =>
    if text.head? = some '"' then ([], some (stripQuotes (trim text)))
    else (trim text, none)

/-- The references to the qualified names of `region`. Each is placed where its name first
occurs in the line. -/
def referencesIn (origin : Origin) (line : Text) (number : Int) (region : Text) : List Reference :=
  (qualifiedNames region).filterMap fun name =>
    (find? name line).map fun start =>
      { line := number, start := start, stop := start + name.length, name := name,
        level := nestingLevel line start, origin := origin }

/-! ## The rest of a line, by keyword -/

/-- The digits of the status, the text in braces, and what follows them. -/
def responseParts? (rest : Text) : Option (Text × Text × Text) := do
  let digits := rest.takeWhile isDigit
  guard (digits ≠ [])
  let '{' :: more ← afterBlanks? (rest.dropWhile isDigit) | none
  let object := more.takeWhile (· ≠ '}')
  guard (object ≠ [])
  let '}' :: more := more.dropWhile (· ≠ '}') | none
  some (digits, object, more)

/-- The number that the digits of a status spell. -/
def statusOf (digits : Text) : Except StatusTooLong Nat :=
  if digits.length > digitLimit then .error ⟨digits.length⟩ else .ok (numberOf digits)

def StatusTooLong.message (error : StatusTooLong) : Text := tooManyDigits error.digits

def flag? (word : Text) : Option Bool :=
  if word = "true".toList then some true
  else if word = "false".toList then some false
  else none

/-- The path of a route and the methods in brackets after it. -/
def routeParts? (rest : Text) : Option (Text × List Text) :=
  let path := rest.takeWhile fun c => !isBlank c
  if path = [] then none
  else
    let inside := match afterBlanks? (rest.dropWhile fun c => !isBlank c) with
      | some ('[' :: more) =>
        if more.contains ']' then more.takeWhile (· ≠ ']') else []
      | _ => []
    some (path, (piecesBetween (fun c => isBlank c || c = ',') inside).map lower)

namespace Field

def ofResponse (outcome : Outcome) (line : Text) (number : Int) (rest : Text) :
    Except StatusTooLong (Option Field) :=
  match responseParts? rest with
  | none => .ok none
  | some (digits, object, more) => do
    let status ← statusOf digits
    let (value, description) := splitDescription rest
    let (region, _) := splitDescription (trim more)
    return some
      { line := number, detail := .response outcome status (trim object), value, description,
        references := referencesIn .response line number region }

def ofParam (line : Text) (number : Int) (rest : Text) : Option Field :=
  let (value, description) := splitDescription rest
  match words value with
  | name :: location :: more =>
    some
      { line := number,
        detail := .param name location more.head? (more[1]?.bind flag?), value, description,
        references := referencesIn .request line number value }
  | _ => none

def ofRouter (number : Int) (rest : Text) : Option Field :=
  (routeParts? rest).map fun (path, methods) =>
    { line := number, detail := .router path methods, value := rest, description := none,
      references := [] }

def ofSecurity (number : Int) (rest : Text) : Option Field :=
  (word? rest).map fun (scheme, _) =>
    { line := number, detail := .security scheme, value := rest, description := none,
      references := [] }

def ofTag (name : TagName) (number : Int) (rest : Text) : Field :=
  { line := number, detail := .tag name, value := rest, description := none, references := [] }

/-- The field of line `number`, if it is an annotation of one of the known forms. -/
def ofLine (line : Text) (number : Int) : Except StatusTooLong (Option Field) :=
  match keywordAndRest? line with
  | none => .ok none
  | some (word, rest) =>
    match Keyword.ofText? word with
    | none => .ok none
    | some (.outcome outcome) => ofResponse outcome line number rest
    | some .param => .ok (ofParam line number rest)
    | some .router => .ok (ofRouter number rest)
    | some .security => .ok (ofSecurity number rest)
    | some (.tag name) => .ok (some (ofTag name number rest))

end Field

end ApiNotes
