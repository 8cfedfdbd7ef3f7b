import ApiNotes.Index.Basic

/-!
# Declarations that are already known

A declaration is looked for among the types of the document itself, or in the index of the
project. In the index a package may be meant by the name of the directory that the document
imports it from, or by its own name; without either, a type that is declared once is found
whatever the package.
-/

namespace ApiNotes

/-- The order in which kinds of declarations of one name are preferred. -/
def Go.TypeKind.rank : Go.TypeKind → Nat
  | .struct => 0
  | .interface => 1
  | .synonym | .named => 2

/-- Whether a declaration is preferred to another: by its kind, then by its line. -/
def Go.TypeDecl.precedes (a b : Go.TypeDecl) : Bool :=
  a.kind.rank < b.kind.rank || (a.kind.rank == b.kind.rank && a.first < b.first)

/-- The preferred declaration of a list, the first one among equals. -/
def Go.TypeDecl.best? : List Go.TypeDecl → Option Go.TypeDecl
  | [] => none
  | decl :: more =>
    some (more.foldl (fun best other => if other.precedes best then other else best) decl)

namespace Navigation

/-- The package named in a reference, where that is not the empty text. -/
def named? (package : Option Text) : Option Text := package.filter (· ≠ [])

/-- The declaration of a type in the document, unless the reference names another package. -/
def inDocument? (package : Option Text) (type : Text) (document : GoFile) : Option Site :=
  let elsewhere : Bool := match named? package, document.package with
    | some package, some own => package ≠ own
    | _, _ => false
  if elsewhere then none
  else
    (Go.TypeDecl.best? (document.types.filter (·.name = type))).map fun decl =>
      { name := document.qualify decl.name, file := document.name, line := decl.first,
        kind := .declared decl.kind }

def importedDirectory? (document : GoFile) (package : Text) : Option Text :=
  ((document.imports.find? (·.localName = package)).map (·.directory)).filter (· ≠ [])

/-- The name of the directory that a path leads through last. -/
def directoryNameOf (path : Text) : Text := ((path.splitOn '/').dropLast.getLast?).getD []

/-- The declarations in the index of all types of a name, in any package. -/
def candidates (index : Index) (type : Text) : List Site :=
  (index.types.filter fun (name, _) => typeNameOf name = type).flatMap (·.2)

/-- The declaration of a type in the index, as seen from a document. -/
def inIndex? (index : Index) (package : Option Text) (type : Text) (document : GoFile) :
    Option Site :=
  let sites := candidates index type
  let byPackage := (named? package).bind fun package =>
    let byImport := (importedDirectory? document package).bind fun directory =>
      sites.find? fun site => directoryNameOf site.file = directory
    byImport <|> sites.find? fun site => site.name = package ++ '.' :: type
  byPackage <|> match sites with
    | [site] => some site
    | _ => none

end Navigation

end ApiNotes
