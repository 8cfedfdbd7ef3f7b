import ApiNotes.Go.Braces
import ApiNotes.Go.Imports

/-!
# Type declarations

A declaration is a line `type Name …`, or a line `Name …` in a group, which begins with
`type (` and ends with a line that begins with `)`. A struct or interface whose brace opens
on its line ends where the brace closes, and no declaration is looked for before that; any
other declaration is one line.
-/

namespace ApiNotes.Go

open Text

inductive TypeKind where
  | struct
  | interface
  /-- Another name for a type, `Name = Type`. -/
  | synonym
  /-- A type of its own with the representation of another, `Name Type`. -/
  | named
  deriving DecidableEq

def TypeKind.text : TypeKind → Text
  | .struct => "struct".toList
  | .interface => "interface".toList
  | .synonym => "alias".toList
  | .named => "named".toList

/-- A type declaration and the lines from its first to its last. -/
structure TypeDecl where
  name : Text
  kind : TypeKind
  first : Nat
  last : Nat
  deriving DecidableEq

/-- Whether a text begins with a word that ends there. -/
def startsWithWord (word text : Text) : Bool := (after? word text).any (isWordEdge word.getLast?)

/-- What follows type parameters in brackets, up to the first closing one, at the start of a
text; all of the text where there are none. -/
def afterTypeParameters (text : Text) : Text :=
  match text with
  | '[' :: rest =>
    if rest.contains ']' then trimLeft ((rest.dropWhile (· ≠ ']')).drop 1) else text
  | _ => text

/-- The kind of a type, from what follows its name. -/
def kindOfRest (rest : Text) : TypeKind :=
  let rest := afterTypeParameters (trimLeft rest)
  if rest.head? = some '=' then .synonym
  else if startsWithWord "struct".toList rest then .struct
  else if startsWithWord "interface".toList rest then .interface
  else .named

/-- The name and kind that a declaration gives; none without a name or anything after it. -/
def typeSpec? (spec : Text) : Option (Text × TypeKind) := do
  let (name, rest) ← word? (trim spec)
  if trim rest = [] then none else some (name, kindOfRest rest)

/-- Whether a declaration of this kind and text goes on to a closing brace. -/
def isBraced (kind : TypeKind) (spec : Text) : Bool :=
  (kind = .struct || kind = .interface) && spec.contains '{'

/-- The declaration that `spec` gives, where `lines` begins with its line. -/
def typeDecl? (spec : Text) (number : Nat) (lines : List Text) : Option TypeDecl :=
  (typeSpec? spec).map fun (name, kind) =>
    { name := name, kind := kind, first := number,
      last := if isBraced kind spec then number + BraceScan.start.linesToClose lines else number }

/-- The text of the declaration on a line outside, or inside, a group. -/
def specOfLine? (grouped : Bool) (line : Text) : Option Text :=
  if grouped then
    let text := trim line
    if text = [] || startsWith ['/', '/'] text then none else some text
  else afterClauseWord? "type".toList line

/-- The declarations from a line on; `grouped` inside a group, and after `skip` lines that
belong to the declaration before. -/
def typesFrom (grouped : Bool) (skip number : Nat) : List Text → List TypeDecl
  | [] => []
  | line :: rest =>
    match skip with
    | skip + 1 => typesFrom grouped skip (number + 1) rest
    | 0 =>
      if grouped && isGroupEnd line then typesFrom false 0 (number + 1) rest
      else if !grouped && isGroupStart "type".toList line then typesFrom true 0 (number + 1) rest
      else
        match (specOfLine? grouped line).bind fun spec => typeDecl? spec number (line :: rest) with
        | some decl => decl :: typesFrom grouped (decl.last - decl.first) (number + 1) rest
        | none => typesFrom grouped 0 (number + 1) rest

def typesOf (lines : List Text) : List TypeDecl := typesFrom false 0 1 lines

end ApiNotes.Go
