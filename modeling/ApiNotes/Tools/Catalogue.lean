import ApiNotes.Query.Answer

namespace ApiNotes

inductive Tool where
  | summary
  | files
  | blocks
  | annotations
  | referenceAt
  | definitionAt
  | findType
  | endpoints
  | spans
  | folds
  | reindex
  deriving DecidableEq

/-- An argument of a tool: its name, the kind of its value, what it means. -/
structure Argument where
  name : String
  kind : String
  description : String

namespace Argument

def filePath : Argument := ⟨"file_path", "string", "Relative path to a Go file in the project."⟩

def line : Argument := ⟨"line", "integer", "1-indexed line number."⟩

def column : Argument := ⟨"column", "integer", "0-indexed column on the line."⟩

/-- The length of an answer. -/
def maxResults : Argument :=
  ⟨"max_results", "integer",
    "Maximum number of results to return (0 = unlimited, default 0)."⟩

def toValue (argument : Argument) : Value :=
  .ofMembers [("type", .text argument.kind.toList),
    ("description", .text argument.description.toList)]

end Argument

namespace Tool

/-- Every tool, in the order in which they are listed. -/
def all : List Tool :=
  [.summary, .files, .blocks, .annotations, .referenceAt, .definitionAt, .findType, .endpoints,
    .spans, .folds, .reindex]

def name : Tool → String
  | .summary => "get_project_summary"
  | .files => "list_files"
  | .blocks => "get_godoc_blocks"
  | .annotations => "get_annotations"
  | .referenceAt => "get_model_at"
  | .definitionAt => "goto_definition"
  | .findType => "find_type"
  | .endpoints => "list_endpoints"
  | .spans => "get_highlights"
  | .folds => "get_fold_ranges"
  | .reindex => "reindex"

def ofName? (name : Text) : Option Tool := all.find? fun tool => tool.name.toList = name

def description : Tool → String
  | .summary => "High-level overview: Go files, packages, annotated endpoints."
  | .files => "List indexed Go files. Optional glob pattern to filter (e.g. 'internal/**')."
  | .blocks => "Line ranges of the godoc swagger annotation blocks in a file."
  | .annotations =>
    "Parsed annotation fields (status codes, params, routes, security, model references) of a " ++
      "file's blocks."
  | .referenceAt =>
    "The model reference (package.Type) at or within the configured proximity (GODOC_PROXIMITY " ++
      "columns) of a position."
  | .definitionAt =>
    "Find the declaration of the model reference at a position in an annotation block."
  | .findType => "Where a Go type is declared, by 'package.Type' or bare 'Type'."
  | .endpoints =>
    "All @Router endpoints across the project with methods, file, line and summary."
  | .spans => "Highlight spans (line, columns, group) for the annotation blocks of a file."
  | .folds =>
    "Foldable regions for the annotation blocks of a file, with summary text. " ++
      "With a line, only the fold of the block under that line."
  | .reindex =>
    "Re-index the project, or a single file when file_path is given. " ++
      "Use after editing Go files to refresh annotations and types."

def arguments : Tool → List Argument
  | .summary => []
  | .files =>
    [⟨"pattern", "string", "Glob pattern to filter files (uses fnmatch)."⟩, .maxResults]
  | .blocks | .spans => [.filePath]
  | .annotations =>
    [.filePath, ⟨"line", "integer", "Only the block covering this 1-indexed line."⟩]
  | .referenceAt | .definitionAt => [.filePath, .line, .column]
  | .findType => [⟨"name", "string", "Type name (e.g. 'models.User' or 'User')."⟩]
  | .endpoints =>
    [⟨"pattern", "string", "Glob pattern on the route path (e.g. '/users/*')."⟩, .maxResults]
  | .folds =>
    [.filePath, ⟨"line", "integer", "Only the fold of the block covering this 1-indexed line."⟩]
  | .reindex =>
    [⟨"file_path", "string",
      "Re-index only this file (removed from the index if it no longer exists)."⟩]

/-- The names of the arguments that a tool must be given. -/
def required : Tool → List String
  | .blocks | .spans | .annotations | .folds => ["file_path"]
  | .referenceAt | .definitionAt => ["file_path", "line", "column"]
  | .findType => ["name"]
  | .summary | .files | .endpoints | .reindex => []

def schema (tool : Tool) : Value :=
  .ofMembers (
    [("type", .text "object".toList),
      ("properties", .ofMembers (tool.arguments.map fun argument => (argument.name, argument.toValue)))] ++
    if tool.required = [] then []
    else [("required", .ofTexts (tool.required.map (·.toList)))])

def toValue (tool : Tool) : Value :=
  .ofMembers [("name", .text tool.name.toList), ("description", .text tool.description.toList),
    ("inputSchema", tool.schema)]

end Tool

end ApiNotes
