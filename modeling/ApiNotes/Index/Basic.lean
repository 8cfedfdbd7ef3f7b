import ApiNotes.Go.File
import ApiNotes.Index.Table
import ApiNotes.Disk.Path

/-!
# The index of a project

An index holds what is known of every file, and beside it what follows from that: the table of
type declarations by qualified name, and the totals. `Index.ofFiles` is the only way to make
one, so the table and the totals always belong to the files.
-/

namespace ApiNotes

/-- How a declaration was found: as a declaration of a kind, or as a line that looks like one. -/
inductive SiteKind where
  | declared (kind : Go.TypeKind)
  | matched
  deriving DecidableEq

def SiteKind.text : SiteKind → Text
  | .declared kind => kind.text
  | .matched => "match".toList

structure Site where
  name : Text
  file : Text
  line : Nat
  kind : SiteKind
  deriving DecidableEq

/-- Sums over the files of an index. -/
structure Totals where
  files : Nat
  lines : Nat
  blocks : Nat
  types : Nat
  deriving DecidableEq

/-- Declarations by the qualified names of the types. -/
abbrev TypeTable := Table (List Site)

def GoFile.site (path : Text) (file : GoFile) (decl : Go.TypeDecl) : Site :=
  { name := file.qualify decl.name, file := path, line := decl.first, kind := .declared decl.kind }

def GoFile.sites (path : Text) (file : GoFile) : List Site := file.types.map (file.site path)

namespace TypeTable

/-- The table with one more declaration, after those of the same name. -/
def add (table : TypeTable) (site : Site) : TypeTable :=
  Table.alter (fun sites => sites.getD [] ++ [site]) site.name table

/-- The table of all declarations in the files, which are gone through in order of their
paths. -/
def ofFiles (files : Table GoFile) : TypeTable :=
  (files.sorted.flatMap fun (path, file) => file.sites path).foldl add []

end TypeTable

/-- The part of a qualified name that names the type in its package. -/
def typeNameOf (qualified : Text) : Text := Text.afterLast '.' qualified

/-- What is known of the files of a project, by their paths from its root. -/
structure Index where
  root : Root
  files : Table GoFile
  types : TypeTable
  totals : Totals

namespace Index

def total (count : GoFile → Nat) (files : Table GoFile) : Nat :=
  files.foldr (fun (_, file) sum => count file + sum) 0

def ofFiles (root : Root) (files : Table GoFile) : Index where
  root := root
  files := files
  types := .ofFiles files
  totals :=
    { files := files.length
      lines := total (·.lines.length) files
      blocks := total (·.notes.length) files
      types := total (·.types.length) files }

/-- The index with a file in it, in place of any file of the same path. -/
def put (index : Index) (path : Text) (file : GoFile) : Index :=
  ofFiles index.root (index.files.put path file)

def erase (index : Index) (path : Text) : Index := ofFiles index.root (index.files.erase path)

end Index

end ApiNotes
