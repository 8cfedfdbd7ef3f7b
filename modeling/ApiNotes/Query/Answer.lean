import ApiNotes.Query.Project
import ApiNotes.Value.Basic

namespace ApiNotes

/-- An object with members of the given names, in their order. -/
def Value.ofMembers (members : List (String × Value)) : Value :=
  .object (members.map fun (name, value) => (name.toList, value))

def Value.ofPair (first last : Int) : Value := .list [.int first, .int last]

def Value.ofTexts (texts : List Text) : Value := .list (texts.map .text)

def Block.toValue (block : Block) : Value := .ofPair block.first block.last

def Reference.toValue (reference : Reference) : Value :=
  .ofMembers [
    ("qualified_name", .text reference.name),
    ("line", .int reference.line),
    ("columns", .ofPair reference.start reference.stop),
    ("nesting_level", .int reference.level),
    ("origin", .text reference.origin.text)]

/-- A text as a member of an object, left out where it is empty. -/
def Value.textMember (name : String) (text : Text) : List (String × Value) :=
  if text = [] then [] else [(name, .text text)]

/-- The members of a field that come from what it says. -/
def Detail.members : Detail → List (String × Value)
  | .response _ status object =>
    ("status", .int status) :: Value.textMember "object_kind" object
  | .param name location type required =>
    Value.textMember "param_name" name ++ Value.textMember "param_location" location ++
      Value.textMember "param_type" (type.getD []) ++
      (required.map fun flag => ("required", Value.bool flag)).toList
  | .router path methods =>
    Value.textMember "router_path" path ++
      if methods = [] then [] else [("router_methods", .ofTexts methods)]
  | .security scheme => Value.textMember "security_scheme" scheme
  | .tag _ => []

/-- A field lists only what it has. -/
def Field.toValue (field : Field) : Value :=
  .ofMembers (
    [("line", .int field.line), ("kind", .text field.keyword.kindText),
      ("keyword", .text field.keyword.text)] ++
    Value.textMember "value" field.value ++ field.detail.members ++
    Value.textMember "description" (field.description.getD []) ++
    if field.references = [] then []
    else [("models", .list (field.references.map (·.toValue)))])

def Note.toValue (note : Note) : Value :=
  .ofMembers [("lines", note.block.toValue), ("fields", .list (note.fields.map (·.toValue)))]

def NoteSize.toValue (size : NoteSize) : Value :=
  .ofMembers [("lines", size.block.toValue), ("fields", .int size.fields),
    ("models", .int size.references)]

def Span.toValue (span : Span) : Value :=
  .ofMembers [("line", .int span.line), ("columns", .ofPair span.start span.stop),
    ("group", .text span.group.text)]

def Fold.toValue (fold : Fold) : Value :=
  .ofMembers [("lines", fold.block.toValue), ("summary", .text fold.summary),
    ("hidden_text", .text fold.placeholder)]

def Endpoint.members (endpoint : Endpoint) : List (String × Value) :=
  [("path", .text endpoint.path), ("methods", .ofTexts endpoint.methods),
    ("line", .int endpoint.line),
    ("summary", (endpoint.summary.map Value.text).getD .null)]

def Endpoint.toValue (endpoint : Endpoint) : Value := .ofMembers endpoint.members

/-- A route with the path of its file. -/
def Endpoint.toValueIn (path : Text) (endpoint : Endpoint) : Value :=
  .ofMembers (endpoint.members ++ [("file", .text path)])

def Site.members (site : Site) : List (String × Value) :=
  [("qualified_name", .text site.name), ("file", .text site.file), ("line", .int site.line),
    ("kind", .text site.kind.text)]

def Site.toValue (site : Site) : Value := .ofMembers site.members

def Navigation.Definition.toValue (definition : Navigation.Definition) : Value :=
  .ofMembers (definition.site.members ++ [("resolver", .text definition.resolver.text)])

/-- A missing answer: a text where there is no file to ask about, else an object. -/
def Miss.toValue (miss : Miss) : Value :=
  match miss with
  | .noSuchFile _ => .text miss.message
  | _ => .ofMembers [("error", .text miss.message)]

/-- An answer, or what is said where there is none. -/
def Value.ofAnswer {α : Type} (toValue : α → Value) : Except Miss α → Value
  | .ok answer => toValue answer
  | .error miss => miss.toValue

end ApiNotes
