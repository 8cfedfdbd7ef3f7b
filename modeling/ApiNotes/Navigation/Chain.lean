import ApiNotes.Config
import ApiNotes.Navigation.Name
import ApiNotes.Navigation.Search

/-!
# From a reference to a declaration

The ways to look for a declaration are tried in the order that the navigation style lays
down; searching the text comes last in every style.
-/

namespace ApiNotes.Navigation

/-- A way to look for a declaration. -/
inductive Resolver where
  | document
  | index
  | search
  deriving DecidableEq

def Resolver.text : Resolver → Text
  | .document => "document".toList
  | .index => "index".toList
  | .search => "search".toList

/-- What the ways look in: the disk, the root of the project and, where there is one, its
index. -/
structure Surroundings where
  disk : Disk
  root : Path
  index : Option Index

def Resolver.find? (resolver : Resolver) (surroundings : Surroundings) (package : Option Text)
    (type : Text) (document : GoFile) : Option Site :=
  match resolver with
  | .document => inDocument? package type document
  | .index => surroundings.index.bind fun index => inIndex? index package type document
  | .search => inText? surroundings.disk surroundings.root package type

/-- The ways of a style; without an indexer there is no looking in the index. -/
def chain (style : NavigationStyle) (indexed : Bool) : List Resolver :=
  match style with
  | .index => if indexed then [.document, .index, .search] else [.document, .search]
  | .search => [.document, .search]

/-- A name that should be that of a style. -/
structure UnknownStyle where
  name : Text
  deriving DecidableEq

def UnknownStyle.message (error : UnknownStyle) : Text :=
  "Unknown navigation style: ".toList ++ error.name

def chainNamed (style : Text) (indexed : Bool) : Except UnknownStyle (List Resolver) :=
  match NavigationStyle.ofText? style with
  | some style => .ok (chain style indexed)
  | none => .error ⟨style⟩

/-- A declaration and the way in which it was found. -/
structure Definition where
  site : Site
  resolver : Resolver
  deriving DecidableEq

/-- The declaration of the type that a name stands for, by the first way that finds one. -/
def define? (resolvers : List Resolver) (surroundings : Surroundings) (name : Text)
    (document : GoFile) : Option Definition :=
  let (package, type) := splitName name
  resolvers.findSome? fun resolver =>
    (resolver.find? surroundings package type document).map fun site => ⟨site, resolver⟩

end ApiNotes.Navigation
