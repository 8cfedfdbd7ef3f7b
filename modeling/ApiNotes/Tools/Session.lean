import ApiNotes.Index.Indexer
import ApiNotes.Tools.Arguments
import ApiNotes.Tools.Catalogue
import ApiNotes.Value.Layout

/-!
# Sessions

A session serves the tools for one project. Every call takes the disk as it is at that moment and
gives the session after the call, also when the call fails.
-/

namespace ApiNotes

/-- What a session finds around it: the disk, the working directory and the environment. -/
structure Host where
  disk : Disk
  directory : Path
  environment : Environment

/-- What became of a file that was to be indexed again. -/
inductive FileChange where
  | refreshed
  | dropped
  deriving DecidableEq

def FileChange.text : FileChange → Text
  | .refreshed => "re-indexed".toList
  | .dropped => "removed from index".toList

inductive Notice where
  /-- The project at a root is about to be indexed. -/
  | indexing (root : Text)
  | indexed (totals : Totals) (chain : List Navigation.Resolver)
  | changed (path : Text) (change : FileChange)
  deriving DecidableEq

/-- The line that reports a notice; `elapsed` is how long the indexing took. -/
def Notice.text (elapsed : Text) (notice : Notice) : Text :=
  "[mcp-godoc-swagger] ".toList ++
    (match notice with
      | .indexing root => "Indexing project: ".toList ++ root
      | .indexed totals chain =>
        "Indexed ".toList ++ Text.ofNat totals.files ++ " files, ".toList ++
          Text.ofNat totals.lines ++ " lines, ".toList ++ Text.ofNat totals.blocks ++
          " godoc blocks, ".toList ++ Text.ofNat totals.types ++ " types in ".toList ++ elapsed ++
          " (navigation: ".toList ++ ", ".toList.intercalate (chain.map (·.text)) ++ ")".toList
      | .changed path change => path ++ ' ' :: change.text) ++ ['\n']

inductive CallError where
  | argument (error : ArgumentError)
  | config (error : ConfigError)
  | index (error : IndexError)
  | status (error : StatusTooLong)
  deriving DecidableEq

def CallError.message : CallError → Text
  | .argument error => error.message
  | .config error => error.message
  | .index error => error.message
  | .status error => error.message

/-- The index that questions are answered from, the configuration that it was made with, and the
ways to look for declarations. -/
structure Project where
  index : Index
  config : Config
  chain : List Navigation.Resolver

namespace Project

/-- The project of an index, with all ways of the configured style. -/
def ofIndex (index : Index) (config : Config) : Project :=
  ⟨index, config, Navigation.chain config.style true⟩

/-- The ways to look for declarations, and where, with the disk as it is. -/
def navigator (project : Project) (disk : Disk) : Navigator :=
  ⟨project.chain, ⟨disk, project.index.root.place, some project.index⟩⟩

/-- The notes of the blocks that cover a line, or all. -/
def notesOf (file : GoFile) : Option Number.Given → Except ArgumentError (List Note)
  | none => .ok file.notes
  | some (.ok line) => .ok (file.notesCovering line)
  | some (.error kind) =>
    if file.notes.isEmpty then .ok [] else .error (.unordered "<=".toList "int".toList kind)

def foldsOf (config : Config) (file : GoFile) :
    Option Number.Given → Except ArgumentError (List Fold)
  | none => .ok (file.folds config)
  | some (.ok line) => .ok (file.foldsCovering config line)
  | some (.error kind) =>
    if (Block.ofLines config.marker file.lines).isEmpty then .ok []
    else .error (.unordered "<=".toList "int".toList kind)

def referencesOn (notes : List Note) (line : Value) : Except ArgumentError (List Reference) :=
  match line.given with
  | .ok line => .ok ((line.toInt?.map (Note.referencesAt notes)).getD [])
  | .error kind =>
    if notes.isEmpty then .ok [] else .error (.unordered "<=".toList "int".toList kind)

/-- The reference at the position that two values mean, or the nearest one within reach. -/
def nearest? (notes : List Note) (line column : Value) (reach : Number) :
    Except ArgumentError (Option Reference) := do
  let references ← referencesOn notes line
  match column.given with
  | .ok column => return Note.nearestOf references column reach
  | .error kind =>
    if references.isEmpty then return none
    else throw (.unordered ['<'] kind "int".toList)

/-- The reference at or near the position that two values mean. -/
def referenceAt (config : Config) (file : GoFile) (line column : Value) :
    Except ArgumentError (Except Miss Reference) := do
  match ← nearest? file.notes line column config.reach with
  | some reference => return .ok reference
  | none => return .error (.noReference line.shown column.shown)

def definitionAt (config : Config) (navigator : Option Navigator) (file : GoFile)
    (line column : Value) : Except ArgumentError (Except Miss Navigation.Definition) :=
  match navigator with
  | none => .ok (.error .noNavigation)
  | some navigator => do
    let found ← referenceAt config file line column
    return found.bind (file.definitionOf navigator)

/-- Puts a question to the file that the arguments name. -/
def askFile (project : Project) (arguments : Arguments)
    (ask : GoFile → Except CallError Value) : Except CallError Value := do
  match ← ((arguments.require "file_path").bind (Arguments.fileIn project.index)).mapError .argument with
  | .ok file => ask file
  | .error miss => return miss.toValue

/-- Puts a question about a position to the file that the arguments name. -/
def askPosition (project : Project) (reading : PositionReading) (arguments : Arguments)
    (ask : GoFile → Value → Value → Except ArgumentError Value) : Except CallError Value := do
  let path ← (arguments.require "file_path").mapError .argument
  let (line, column) ← (arguments.position reading).mapError .argument
  match ← (Arguments.fileIn project.index path).mapError .argument with
  | .ok file => (ask file line column).mapError .argument
  | .error miss => return miss.toValue

def answer (project : Project) (disk : Disk) (reading : PositionReading) (tool : Tool)
    (arguments : Arguments) : Except CallError Value :=
  let index := project.index
  let config := project.config
  match tool with
  | .summary => .ok (.text index.summary)
  | .files => do
    let pattern ← (arguments.pattern index.files.keys).mapError .argument
    let limit ← arguments.limit.mapError .argument
    return .ofTexts (index.listFiles pattern limit)
  | .endpoints => do
    let paths := index.allEndpoints.map fun (_, endpoint) => endpoint.path
    let pattern ← (arguments.pattern paths).mapError .argument
    let limit ← arguments.limit.mapError .argument
    return .list ((index.listEndpoints pattern limit).map fun (path, endpoint) =>
      endpoint.toValueIn path)
  | .blocks =>
    project.askFile arguments fun file => .ok (.list (file.noteSizes.map (·.toValue)))
  | .spans =>
    project.askFile arguments fun file => do
      let spans ← (file.spans config).mapError .status
      return .list (spans.map (·.toValue))
  | .annotations =>
    project.askFile arguments fun file => do
      let notes ← (notesOf file arguments.line?).mapError .argument
      return .list (notes.map (·.toValue))
  | .folds =>
    project.askFile arguments fun file => do
      let folds ← (foldsOf config file arguments.line?).mapError .argument
      return .list (folds.map (·.toValue))
  | .referenceAt =>
    project.askPosition reading arguments fun file line column =>
      (referenceAt config file line column).map (.ofAnswer (·.toValue))
  | .definitionAt =>
    project.askPosition reading arguments fun file line column =>
      (definitionAt config (some (project.navigator disk)) file line column).map
        (.ofAnswer (·.toValue))
  | .findType => do
    let found ← ((arguments.require "name").bind (Arguments.sitesIn index)).mapError .argument
    return .ofAnswer (fun sites => .list (sites.map (·.toValue))) found
  | .reindex => .ok (.text "Error: unknown tool 'reindex'".toList)

end Project

/-- What a session keeps from call to call. -/
structure Session where
  config : Option Config
  indexer : Option Indexer
  project : Option Project

namespace Session

def start : Session := ⟨none, none, none⟩

/-- What a call comes to: the session after it, what it reports, and its answer. -/
structure Outcome (α : Type) where
  session : Session
  notices : List Notice
  answer : Except CallError α

/-- The indexer that a configuration asks for, without an index. -/
def indexerFor (host : Host) (config : Config) : Indexer :=
  .start (Root.ofText host.directory config.root) [] [] config.sizeLimit config.marker

/-- The given configuration, the one in use, or the one that the environment describes. -/
def configFor (session : Session) (host : Host) (given : Option Config) : Except ConfigError Config :=
  match given <|> session.config with
  | some config => .ok config
  | none => Config.ofEnvironment host.directory.text host.environment

/-- Indexes the whole project with a configuration, which is in use from then on. -/
def rebuildWith (session : Session) (host : Host) (config : Config) : Outcome Unit :=
  let indexer := indexerFor host config
  let begun := Notice.indexing config.root
  match indexer.build host.disk with
  | .error error =>
    ⟨{ session with config := some config, indexer := some indexer }, [begun],
      .error (.index error)⟩
  | .ok built =>
    match built.index with
    | none => ⟨{ session with config := some config, indexer := some built }, [begun], .ok ()⟩
    | some index =>
      let project := Project.ofIndex index config
      ⟨⟨some config, some built, some project⟩, [begun, .indexed index.totals project.chain],
        .ok ()⟩

def rebuild (session : Session) (host : Host) (given : Option Config) : Outcome Unit :=
  match session.configFor host given with
  | .error error => ⟨session, [], .error (.config error)⟩
  | .ok config => session.rebuildWith host config

def rebuilt : Text := "Project re-indexed successfully.".toList

def reindexAll (session : Session) (host : Host) : Outcome Text :=
  let outcome := session.rebuild host none
  ⟨outcome.session, outcome.notices, outcome.answer.map fun _ => rebuilt⟩

/-- The indexer of a session that has made an index, that index, and the configuration. -/
def ready? (session : Session) : Option (Indexer × Index × Config) := do
  let indexer ← session.indexer
  return (indexer, ← indexer.index, ← session.config)

/-- Whether a path text leads to a file; a null character leads nowhere. -/
def leadsToFile (indexer : Indexer) (disk : Disk) (path : Text) : Bool :=
  match indexer.textAt? disk path with
  | .ok (some _) => true
  | _ => false

/-- What is to become of the file that a path text names. -/
def changeOf (indexer : Indexer) (disk : Disk) (path : Text) : FileChange :=
  if leadsToFile indexer disk path then .refreshed else .dropped

/-- The indexer after a change of the file that goes by a path from the root. -/
def applyChange (indexer : Indexer) (disk : Disk) (key : Text) :
    FileChange → Except IndexError Indexer
  | .refreshed => indexer.refresh disk key
  | .dropped => indexer.drop key

/-- Indexes one file again, or drops it where it is no longer there. Where nothing is indexed
yet, the whole project is. -/
def reindexFile (session : Session) (host : Host) (path : Text) : Outcome Text :=
  match session.ready? with
  | none => session.reindexAll host
  | some (indexer, _, config) =>
    let key := indexer.pathOf path
    if indexer.isExcluded key then
      ⟨session, [], .ok ("Skipped '".toList ++ key ++ "': excluded from the index.".toList)⟩
    else
      let change := changeOf indexer host.disk path
      match applyChange indexer host.disk key change with
      | .error error => ⟨session, [], .error (.index error)⟩
      | .ok updated =>
        ⟨⟨some config, some updated, updated.index.map (Project.ofIndex · config)⟩,
          [.changed key change],
          .ok ("File '".toList ++ key ++ "' ".toList ++ change.text ++ ['.'])⟩

/-- The answer to a question, by the name of its tool. -/
def ask (session : Session) (host : Host) (name : Text) (arguments : Arguments) :
    Except CallError Value :=
  match session.project with
  | none => .ok (.text "Error: index not built yet. Call reindex first.".toList)
  | some project =>
    match Tool.ofName? name with
    | some tool => project.answer host.disk .integers tool arguments
    | none => .ok (.text ("Error: unknown tool '".toList ++ name ++ ['\x27']))

def reindex (session : Session) (host : Host) (arguments : Arguments) : Outcome Text :=
  match arguments.lookup "file_path".toList with
  | some (.text []) | none => session.reindexAll host
  | some (.text path) => session.reindexFile host path
  | some value =>
    if !value.isGiven || session.ready?.isNone then session.reindexAll host
    else ⟨session, [], .error (.argument (.notPath value.kindText))⟩

def handle (session : Session) (host : Host) (name : Text) (arguments : Arguments) : Outcome Text :=
  if Tool.ofName? name = some .reindex then session.reindex host arguments
  else ⟨session, [], (session.ask host name arguments).map (·.render)⟩

/-- Calls a tool by its name. The answer is a text, also when the call failed. -/
def call (session : Session) (host : Host) (name : Text) (arguments : Arguments) :
    Session × List Notice × Text :=
  let outcome := session.handle host name arguments
  (outcome.session, outcome.notices, match outcome.answer with
    | .ok text => text
    | .error error => "Error: ".toList ++ error.message)

end Session

end ApiNotes
