import ApiNotes.Ordered
import ApiNotes.Query.File
import ApiNotes.Text.Glob
import ApiNotes.Text.Letters

namespace ApiNotes

namespace Index

/-- The file that a path names: the one of exactly that path, or else the first one whose path
ends with it or which it ends with. -/
def file? (index : Index) (path : Text) : Option GoFile :=
  index.files.get? path <|>
    (index.files.find? fun (stored, _) =>
      Text.endsWith path stored || Text.endsWith stored path).map (·.2)

/-- Whether a glob admits a text; without a glob, or with an empty one, every text passes. -/
def passes (pattern : Option Text) (text : Text) : Bool :=
  match pattern with
  | none | some [] => true
  | some pattern => (Glob.read pattern).admits text

/-- The first `limit` of a list, where that is a number above zero. -/
def upTo {α : Type} (limit : Int) (items : List α) : List α :=
  if 0 < limit then items.take limit.toNat else items

def listFiles (index : Index) (pattern : Option Text) (limit : Int) : List Text :=
  upTo limit ((Ordered.sort Text.le index.files.keys).filter (passes pattern))

/-- The routes of all files, in order of the paths of the files. -/
def allEndpoints (index : Index) : List (Text × Endpoint) :=
  index.files.sorted.flatMap fun (path, file) => file.endpoints.map fun endpoint => (path, endpoint)

def listEndpoints (index : Index) (pattern : Option Text) (limit : Int) : List (Text × Endpoint) :=
  upTo limit (index.allEndpoints.filter fun (_, endpoint) => passes pattern endpoint.path)

/-- The declarations of a type: a name with a dot is a qualified one, any other name stands for
the types of that name in all packages. -/
def sitesOf (index : Index) (name : Text) : List Site :=
  if name.contains '.' then (index.types.get? name).getD []
  else (index.types.sorted.filter fun (key, _) => typeNameOf key = name).flatMap (·.2)

/-- The declarations of a type, of which there must be one. -/
def findType (index : Index) (name : Text) : Except Miss (List Site) :=
  match index.sitesOf name with
  | [] => .error (.noSuchType name)
  | sites => .ok sites

/-- The packages of the files, each once, in order. -/
def packages (index : Index) : List Text :=
  Ordered.sort Text.le (index.files.filterMap (·.2.package)).eraseDups

def shownEndpoints : Nat := 20

/-- A route as a summary shows it: its methods, or a question mark, its path and its file. -/
def endpointText (path : Text) (endpoint : Endpoint) : Text :=
  let methods := Text.upper (['/'].intercalate endpoint.methods)
  (if methods = [] then ['?'] else methods) ++ ' ' :: endpoint.path ++ " (".toList ++ path ++ [')']

def summary (index : Index) : Text :=
  let comma := ", ".toList
  let totals := index.totals
  let endpoints := index.listEndpoints none 0
  let heading := [
    "Project: ".toList ++ index.root.text,
    "Files: ".toList ++ Text.ofNat totals.files ++ ", Lines: ".toList ++ Text.ofNat totals.lines ++
      ", Godoc blocks: ".toList ++ Text.ofNat totals.blocks ++ ", Types: ".toList ++
      Text.ofNat totals.types]
  let packages :=
    if index.packages = [] then []
    else ["Packages: ".toList ++ comma.intercalate index.packages]
  let shown := (endpoints.take shownEndpoints).map fun (path, endpoint) => endpointText path endpoint
  let routes := if endpoints = [] then [] else ["Endpoints: ".toList ++ comma.intercalate shown]
  let more :=
    if endpoints.length ≤ shownEndpoints then []
    else ["  ... and ".toList ++ Text.ofNat (endpoints.length - shownEndpoints) ++ " more".toList]
  ['\n'].intercalate (heading ++ packages ++ routes ++ more)

end Index

end ApiNotes
