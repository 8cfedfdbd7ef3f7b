import ApiNotes.Proofs.References
import ApiNotes.Proofs.Sessions
import Mathlib.Data.List.Perm.Basic

/-!
# Answers and the past of an index

Two runs of indexers that last read the same texts hold the same files, though in an order that tells of
their past. Whatever is listed is put in order first, so the order is seen by one question only: which
of several files a path names. Where a path is that of a file or fits one file alone, all answers are the
same; where it fits several, each run answers for one of them (`Tracked.answers_agree`).
-/

namespace ApiNotes

/-! ## Lists without doubles -/

theorem nodup_eraseDups (texts : List Text) : texts.eraseDups.Nodup := by
  obtain ⟨length, same⟩ : ∃ length, texts.length = length := ⟨_, rfl⟩
  induction length using Nat.strongRecOn generalizing texts with
  | ind length ih =>
    cases texts with
    | nil => simp
    | cons text rest =>
      rw [List.eraseDups_cons, List.nodup_cons]
      constructor
      · simp
      · refine ih _ ?_ _ rfl
        have := List.length_filter_le (fun other => !other == text) rest
        rw [List.length_cons] at same
        omega

theorem perm_eraseDups {left right : List Text} (same : left.Perm right) :
    left.eraseDups.Perm right.eraseDups := by
  rw [List.perm_ext_iff_of_nodup (nodup_eraseDups left) (nodup_eraseDups right)]
  intro text
  rw [List.mem_eraseDups, List.mem_eraseDups, same.mem_iff]

namespace Index

/-! ## The file that a path names -/

/-- A stored path fits a path text: it ends with the text, or the text ends with it. -/
def Fits (path stored : Text) : Prop := path <:+ stored ∨ stored <:+ path

/-- Whatever the order of the files, a path text names the same one: it is a stored path itself, or
there are no two stored paths that fit it. -/
def Settles (index : Index) (path : Text) : Prop :=
  path ∈ index.files.keys ∨
    ∀ stored ∈ index.files.keys, ∀ other ∈ index.files.keys, Fits path stored → Fits path other →
      stored = other

section
variable {index : Index} {path stored : Text} {file : GoFile}

theorem file?_of_get? (held : index.files.get? path = some file) : index.file? path = some file := by
  simp [file?, held]

/-- What a path text names is the file of a stored path that fits it. -/
theorem exists_fits_of_file? (single : index.files.keys.Nodup) (named : index.file? path = some file) :
    ∃ stored, Fits path stored ∧ index.files.get? stored = some file := by
  cases held : index.files.get? path with
  | some other =>
    rw [file?_of_get? held] at named
    exact ⟨path, .inl (List.suffix_refl path), held.trans named⟩
  | none =>
    simp only [file?, held] at named
    obtain ⟨⟨stored, other⟩, found, rfl⟩ := Option.map_eq_some_iff.mp named
    have fits := List.find?_some found
    simp only [Bool.or_eq_true, Text.endsWith_iff] at fits
    refine ⟨stored, fits, ?_⟩
    exact (Table.get?_eq_some_iff_mem _ single _ _).mpr (List.mem_of_find?_eq_some found)

theorem exists_file?_of_fits (held : stored ∈ index.files.keys) (fits : Fits path stored) :
    ∃ file, index.file? path = some file := by
  cases exact : index.files.get? path with
  | some file => exact ⟨file, file?_of_get? exact⟩
  | none =>
    obtain ⟨⟨stored, file⟩, member, rfl⟩ := List.mem_map.mp held
    rw [← Option.isSome_iff_exists, file?, exact]
    refine Option.isSome_map.trans (List.find?_isSome.mpr ⟨(stored, file), member, ?_⟩)
    simp only [Bool.or_eq_true, Text.endsWith_iff]
    exact fits

end

/-! ## Indexes with their files in another order -/

/-- The same index but for the order in which the files came. -/
structure Reorders (left right : Index) : Prop where
  root : left.root = right.root
  single : left.files.keys.Nodup
  files : left.files.Perm right.files
  types : left.types = right.types
  totals : left.totals = right.totals

theorem Agrees.reorders {left right : Index} (agrees : left.Agrees right)
    (single : left.files.keys.Nodup) (otherSingle : right.files.keys.Nodup) : left.Reorders right where
  root := agrees.root
  single := single
  files := Table.perm_of_get?_eq _ _ single otherSingle agrees.files
  types := agrees.types
  totals := agrees.totals

namespace Reorders

variable {left right : Index} (reorders : left.Reorders right)
include reorders

theorem keys : left.files.keys.Perm right.files.keys := reorders.files.map _

theorem otherSingle : right.files.keys.Nodup := reorders.keys.nodup_iff.mp reorders.single

theorem get? (path : Text) : left.files.get? path = right.files.get? path := by
  refine Option.ext fun file => ?_
  rw [Table.get?_eq_some_iff_mem _ reorders.single, Table.get?_eq_some_iff_mem _ reorders.otherSingle,
    reorders.files.mem_iff]

theorem listFiles : left.listFiles = right.listFiles := by
  funext pattern limit
  rw [Index.listFiles, Index.listFiles, Text.sort_eq_of_perm reorders.keys]

theorem allEndpoints : left.allEndpoints = right.allEndpoints := by
  rw [Index.allEndpoints, Index.allEndpoints, Table.sorted_eq_of_perm reorders.single reorders.files]

theorem listEndpoints : left.listEndpoints = right.listEndpoints := by
  funext pattern limit
  rw [Index.listEndpoints, Index.listEndpoints, reorders.allEndpoints]

theorem packages : left.packages = right.packages :=
  Text.sort_eq_of_perm (perm_eraseDups (reorders.files.filterMap _))

theorem summary : left.summary = right.summary := by
  rw [Index.summary, Index.summary, reorders.root, reorders.totals, reorders.listEndpoints,
    reorders.packages]

theorem sitesIn : Arguments.sitesIn left = Arguments.sitesIn right := by
  funext name
  cases name <;> simp only [Arguments.sitesIn, findType, sitesOf, reorders.types]

theorem pattern (arguments : Arguments) :
    arguments.pattern left.files.keys = arguments.pattern right.files.keys := by
  rw [Arguments.pattern, Arguments.pattern, reorders.keys.isEmpty_eq]

/-- A path text that is settled names the same file in both. -/
theorem file?_of_settles {path : Text} (settles : left.Settles path) : left.file? path = right.file? path := by
  rcases settles with held | alone
  · obtain ⟨file, found⟩ := Table.exists_of_mem_keys held
    rw [file?_of_get? found, file?_of_get? ((reorders.get? path).symm.trans found)]
  · cases named : left.file? path with
    | none =>
      cases other : right.file? path with
      | none => rfl
      | some file =>
        obtain ⟨stored, fits, found⟩ := exists_fits_of_file? reorders.otherSingle other
        have held := reorders.keys.mem_iff.mpr (Table.mem_keys_of_get? found)
        obtain ⟨file, there⟩ := exists_file?_of_fits held fits
        rw [named] at there
        cases there
    | some file =>
      obtain ⟨stored, fits, found⟩ := exists_fits_of_file? reorders.single named
      have held := Table.mem_keys_of_get? found
      obtain ⟨second, there⟩ := exists_file?_of_fits (reorders.keys.mem_iff.mp held) fits
      obtain ⟨other, otherFits, otherFound⟩ := exists_fits_of_file? reorders.otherSingle there
      have otherHeld := reorders.keys.mem_iff.mpr (Table.mem_keys_of_get? otherFound)
      obtain rfl := alone stored held other otherHeld fits otherFits
      rw [there, ← otherFound, ← found, reorders.get?]

theorem fileIn {value : Value} (settled : ∀ path, value = .text path → left.Settles path) :
    Arguments.fileIn left value = Arguments.fileIn right value := by
  cases value with
  | text path => rw [Arguments.fileIn, Arguments.fileIn, reorders.file?_of_settles (settled path rfl)]
  | list items => rfl
  | object members => rfl
  | null | bool _ | int _ | double _ =>
    simp only [Arguments.fileIn, reorders.files.isEmpty_eq]

end Reorders

/-- Any file can come first. -/
theorem reorders_front {index : Index} {stored : Text} {file : GoFile} (single : index.files.keys.Nodup)
    (found : index.files.get? stored = some file) :
    index.Reorders { index with files := (stored, file) :: index.files.erase stored } := by
  have front : (Table.keys ((stored, file) :: index.files.erase stored)).Nodup := by
    refine List.nodup_cons.mpr ⟨fun member => ?_, Table.nodup_keys_erase _ stored single⟩
    exact ((Table.mem_keys_erase _ _ _).mp member).1 rfl
  refine ⟨rfl, single, Table.perm_of_get?_eq _ _ single front fun path => ?_, rfl, rfl⟩
  rw [Table.get?_cons, Table.get?_erase]
  by_cases same : path = stored
  · simp [same, found]
  · simp [same]

theorem file?_front {index : Index} {path stored : Text} {file : GoFile}
    (absent : path ∉ index.files.keys) (apart : path ≠ stored) (fits : Fits path stored) :
    file? { index with files := (stored, file) :: index.files.erase stored } path = some file := by
  have exact : Table.get? ((stored, file) :: index.files.erase stored) path = none := by
    rw [Table.get?_cons, if_neg apart, Table.get?_erase_of_ne _ apart]
    exact (Table.get?_eq_none_iff _ path).mpr absent
  have fit : (Text.endsWith path stored || Text.endsWith stored path) = true := by
    simp only [Bool.or_eq_true, Text.endsWith_iff]
    exact fits
  rw [file?, exact, List.find?_cons_of_pos]
  · rfl
  · exact fit

/-- Only a path text that is settled names the same file in every order. -/
theorem settles_iff {index : Index} {path : Text} (single : index.files.keys.Nodup)
    (named : ∀ stored file, index.files.get? stored = some file → file.name = stored) :
    index.Settles path ↔ ∀ other, index.Reorders other → index.file? path = other.file? path := by
  constructor
  · intro settles other reorders
    exact reorders.file?_of_settles settles
  · intro same
    by_cases absent : path ∈ index.files.keys
    · exact .inl absent
    -- With the file of a fitting path put in front, the path text names that file.
    have names : ∀ stored ∈ index.files.keys, Fits path stored →
        (index.file? path).map (·.name) = some stored := by
      intro stored held fits
      obtain ⟨file, found⟩ := Table.exists_of_mem_keys held
      have apart : path ≠ stored := fun here => absent (here ▸ held)
      rw [same _ (reorders_front single found), file?_front absent apart fits, ← named stored file found]
      rfl
    refine .inr fun stored held other otherHeld fits otherFits => ?_
    exact Option.some.inj ((names stored held fits).symm.trans (names other otherHeld otherFits))

end Index

/-! ## Questions that are put alike -/

/-- The questions about one file that look nowhere else. -/
def Tool.aboutFile : List Tool := [.blocks, .spans, .annotations, .folds, .referenceAt]

/-- Two indexes are asked the same: all arguments are the same except for the path of a file, and what the
two paths name is the same. -/
structure Arguments.Alike (left right : Index) (arguments others : Arguments) : Prop where
  rest : ∀ name : Text, name ≠ "file_path".toList → arguments.lookup name = others.lookup name
  file : (arguments.lookup "file_path".toList).map (Arguments.fileIn left) =
    (others.lookup "file_path".toList).map (Arguments.fileIn right)

namespace Arguments.Alike

variable {left right : Index} {arguments others : Arguments} (alike : Alike left right arguments others)
include alike

theorem line? : arguments.line? = others.line? := by
  rw [Arguments.line?, Arguments.line?, alike.rest _ (by decide)]

theorem limit : arguments.limit = others.limit := by
  rw [Arguments.limit, Arguments.limit, alike.rest _ (by decide)]

theorem pattern (texts : List Text) : arguments.pattern texts = others.pattern texts := by
  rw [Arguments.pattern, Arguments.pattern, alike.rest _ (by decide)]

theorem require (name : String) (other : name.toList ≠ "file_path".toList) :
    arguments.require name = others.require name := by
  rw [Arguments.require, Arguments.require, alike.rest _ other]

theorem position (reading : PositionReading) : arguments.position reading = others.position reading := by
  rw [Arguments.position, Arguments.position, alike.require "line" (by decide),
    alike.require "column" (by decide)]

/-- Either both name a file, and the same one, or neither names any. -/
theorem cases_file :
    (∃ error, arguments.require "file_path" = .error error ∧ others.require "file_path" = .error error) ∨
      ∃ value other, arguments.require "file_path" = .ok value ∧
        others.require "file_path" = .ok other ∧
          Arguments.fileIn left value = Arguments.fileIn right other := by
  have file := alike.file
  rw [Arguments.require, Arguments.require]
  cases given : arguments.lookup "file_path".toList with
  | none =>
    rw [given] at file
    rw [Option.map_eq_none_iff.mp file.symm]
    exact .inl ⟨_, rfl, rfl⟩
  | some value =>
    rw [given] at file
    obtain ⟨other, there, same⟩ := Option.map_eq_some_iff.mp file.symm
    rw [there]
    exact .inr ⟨value, other, rfl, rfl, same.symm⟩

variable (config : Config) (chain ways : List Navigation.Resolver)

theorem askFile (ask : GoFile → Except CallError Value) :
    Project.askFile ⟨left, config, chain⟩ arguments ask =
      Project.askFile ⟨right, config, ways⟩ others ask := by
  rw [Project.askFile, Project.askFile]
  obtain ⟨error, missing, absent⟩ | ⟨value, other, given, there, same⟩ := alike.cases_file
  · rw [missing, absent]
    rfl
  · rw [given, there, Except.bind, Except.bind, same]

theorem askPosition (reading : PositionReading)
    (ask : GoFile → Value → Value → Except ArgumentError Value) :
    Project.askPosition ⟨left, config, chain⟩ reading arguments ask =
      Project.askPosition ⟨right, config, ways⟩ reading others ask := by
  rw [Project.askPosition, Project.askPosition, alike.position]
  obtain ⟨error, missing, absent⟩ | ⟨value, other, given, there, same⟩ := alike.cases_file
  · rw [missing, absent]
    rfl
  · rw [given, there]
    cases others.position reading with
    | error error => rfl
    | ok position =>
      obtain ⟨line, column⟩ := position
      simp only [Except.mapError, bind, Except.bind, same]

/-- A question about a file, other than for a definition, looks at nothing but that file. -/
theorem answer_file {tool : Tool} (asked : tool ∈ Tool.aboutFile) (disk later : Disk) (reading : PositionReading) :
    Project.answer ⟨left, config, chain⟩ disk reading tool arguments =
      Project.answer ⟨right, config, ways⟩ later reading tool others := by
  simp only [Tool.aboutFile, List.mem_cons, List.not_mem_nil, or_false] at asked
  rcases asked with rfl | rfl | rfl | rfl | rfl
  · exact alike.askFile config chain ways _
  · exact alike.askFile config chain ways _
  · simp only [Project.answer, alike.line?]
    exact alike.askFile config chain ways _
  · simp only [Project.answer, alike.line?]
    exact alike.askFile config chain ways _
  · simp only [Project.answer]
    exact alike.askPosition config chain ways reading _

/-- Indexes that hold the same give the same answers to the same questions, unless the question is for a
definition, which is looked up on the disk. -/
theorem answer (reorders : left.Reorders right) {tool : Tool} (asked : tool ≠ .definitionAt)
    (disk later : Disk) (reading : PositionReading) :
    Project.answer ⟨left, config, chain⟩ disk reading tool arguments =
      Project.answer ⟨right, config, ways⟩ later reading tool others := by
  cases tool with
  | summary => simp only [Project.answer, reorders.summary]
  | files =>
    simp only [Project.answer, alike.pattern, alike.limit, reorders.pattern, reorders.listFiles]
  | endpoints =>
    simp only [Project.answer, alike.pattern, alike.limit, reorders.allEndpoints, reorders.listEndpoints]
  | definitionAt => exact absurd rfl asked
  | findType => simp only [Project.answer, alike.require "name" (by decide), reorders.sitesIn]
  | reindex => rfl
  | blocks | spans | annotations | folds | referenceAt =>
    exact alike.answer_file config chain ways (by decide) disk later reading

end Arguments.Alike

namespace Tracked

/-! ## Runs that last read the same texts -/

/-- Two runs that end with the same texts give the same answers, whatever was called before and however the
disk changed, as long as the path of a file in the question is settled. Other path texts name different
files in different orders, and whichever order a run comes to, it answers for a file that fits. -/
theorem answers_agree (root : Root) (marker : Text) (patterns excluded others without : List Text)
    (limit bound : Number.Given) (calls steps : List (Disk × Update)) (left right : Index)
    (reached : ((start root patterns excluded limit marker).run calls).indexer.index = some left)
    (there : ((start root others without bound marker).run steps).indexer.index = some right)
    (same : ((start root others without bound marker).run steps).snapshot =
      ((start root patterns excluded limit marker).run calls).snapshot)
    (config : Config) (chain ways : List Navigation.Resolver) (disk later : Disk)
    (reading : PositionReading) (tool : Tool) (asked : tool ≠ .definitionAt) (arguments : Arguments) :
    ((∀ path, arguments.lookup "file_path".toList = some (.text path) → left.Settles path) →
      Project.answer ⟨left, config, chain⟩ disk reading tool arguments =
        Project.answer ⟨right, config, ways⟩ later reading tool arguments) ∧
    (∀ path, arguments.lookup "file_path".toList = some (.text path) →
      (∃ stored ∈ left.files.keys, Index.Fits path stored) →
      ∃ stored ∈ left.files.keys, Index.Fits path stored ∧
        Project.answer ⟨left, config, chain⟩ disk reading tool
            (("file_path".toList, .text stored) :: arguments) =
          Project.answer ⟨right, config, ways⟩ later reading tool arguments) ∧
    ∀ path, left.Settles path ↔ ∀ other, left.Reorders other → left.file? path = other.file? path := by
  have steady := (steady_start root patterns excluded limit marker).run calls
  have otherSteady := (steady_start root others without bound marker).run steps
  have agrees := steady.follows.agrees (same ▸ otherSteady.follows) (steady.root.trans otherSteady.root.symm)
    (steady.marker.trans otherSteady.marker.symm) reached there
  have reorders := agrees.reorders (steady.reflects reached).single (otherSteady.reflects there).single
  refine ⟨?_, ?_, ?_⟩
  · intro settled
    refine Arguments.Alike.answer ⟨fun _ _ => rfl, ?_⟩ config chain ways reorders asked disk later reading
    cases given : arguments.lookup "file_path".toList with
    | none => rfl
    | some value =>
      refine congrArg some (reorders.fileIn fun path text => settled path ?_)
      rw [given, text]
  · intro path given ⟨fitting, held, fits⟩
    obtain ⟨file, named⟩ := Index.exists_file?_of_fits (reorders.keys.mem_iff.mp held) fits
    obtain ⟨stored, storedFits, found⟩ := Index.exists_fits_of_file? reorders.otherSingle named
    rw [← reorders.get?] at found
    refine ⟨stored, Table.mem_keys_of_get? found, storedFits, ?_⟩
    refine Arguments.Alike.answer ⟨?_, ?_⟩ config chain ways reorders asked disk later reading
    · intro name other
      rw [List.lookup_cons, beq_eq_false_iff_ne.mpr other]
    · rw [List.lookup_cons_self, given, Option.map_some, Option.map_some, Arguments.fileIn, Arguments.fileIn,
        Index.file?_of_get? found, named]
  · intro path
    obtain ⟨files, made, read⟩ := steady.index reached
    refine Index.settles_iff reorders.single fun stored file found => ?_
    rw [made] at found
    exact (read.sound found).name

/-- Two files of one name, of which the second alone holds a block. -/
def twinDisk : Disk where
  directories := [["p".toList], ["p".toList, "a".toList], ["p".toList, "b".toList]]
  files := [(["p".toList, "a".toList, "u.go".toList], "package a\n".toList.map fun c => UInt8.ofNat c.toNat),
    (["p".toList, "b".toList, "u.go".toList],
      "// godoc\n// @Summary b\n".toList.map fun c => UInt8.ofNat c.toNat)]

/-- An indexer of these files that was called once. -/
def twins : Tracked := smallStart.run [(twinDisk, .build)]

/-- The same after the first file was dropped and read again as it was. -/
def shuffledTwins : Tracked :=
  smallStart.run [(twinDisk, .build), (twinDisk, .drop "a/u.go".toList), (twinDisk, .refresh "a/u.go".toList)]

theorem snapshot_shuffledTwins : shuffledTwins.snapshot = twins.snapshot := by
  have known : twins.snapshot "a/u.go".toList = some "package a\n".toList := rfl
  show (twins.snapshot.erase "a/u.go".toList).put "a/u.go".toList "package a\n".toList = twins.snapshot
  funext path
  by_cases same : path = "a/u.go".toList
  · simp only [Snapshot.put, same, known, if_true]
  · simp only [Snapshot.put, Snapshot.erase, same, if_false]

/-- The path of the second file is settled; the name alone fits both. -/
theorem answers_agree_small : ∃ left right config,
    twins.indexer.index = some left ∧ shuffledTwins.indexer.index = some right ∧
      Config.ofEnvironment "/p".toList [] = .ok config ∧
      Project.answer ⟨left, config, []⟩ twinDisk .plain .blocks (Session.forFile "b/u.go") =
        Project.answer ⟨right, config, []⟩ .empty .plain .blocks (Session.forFile "b/u.go") ∧
      ∃ stored ∈ left.files.keys, Index.Fits "u.go".toList stored ∧
        Project.answer ⟨left, config, []⟩ twinDisk .plain .blocks
            (("file_path".toList, .text stored) :: Session.forFile "u.go") =
          Project.answer ⟨right, config, []⟩ .empty .plain .blocks (Session.forFile "u.go") := by
  obtain ⟨left, reached⟩ := Option.isSome_iff_exists.mp (rfl : twins.indexer.index.isSome = true)
  obtain ⟨right, there⟩ := Option.isSome_iff_exists.mp (rfl : shuffledTwins.indexer.index.isSome = true)
  obtain ⟨config, configured⟩ : ∃ config, Config.ofEnvironment "/p".toList [] = .ok config := ⟨_, rfl⟩
  have keys : twins.indexer.index.map (·.files.keys) = some ["a/u.go".toList, "b/u.go".toList] := rfl
  rw [reached] at keys
  have held : "b/u.go".toList ∈ left.files.keys := by
    have listed : left.files.keys = ["a/u.go".toList, "b/u.go".toList] := Option.some.inj keys
    rw [listed]
    exact List.mem_cons_of_mem _ (List.mem_singleton_self _)
  have agree := answers_agree _ _ _ _ _ _ _ _ _ _ left right reached there snapshot_shuffledTwins config [] []
    twinDisk .empty .plain .blocks (by decide)
  refine ⟨left, right, config, reached, there, configured, (agree (Session.forFile "b/u.go")).1 ?_,
    (agree (Session.forFile "u.go")).2.1 _ rfl ⟨_, held, .inl ⟨"b/".toList, rfl⟩⟩⟩
  intro path named
  obtain rfl := Value.text.inj (Option.some.inj named)
  exact .inl held

/-- By its name alone each of the two indexers answers for the file that it read first. -/
theorem answers_differ : ∃ left right config,
    twins.indexer.index = some left ∧ shuffledTwins.indexer.index = some right ∧
      shuffledTwins.snapshot = twins.snapshot ∧ Config.ofEnvironment "/p".toList [] = .ok config ∧
      Project.answer ⟨left, config, []⟩ twinDisk .plain .blocks (Session.forFile "u.go") ≠
        Project.answer ⟨right, config, []⟩ twinDisk .plain .blocks (Session.forFile "u.go") := by
  obtain ⟨config, configured⟩ : ∃ config, Config.ofEnvironment "/p".toList [] = .ok config := ⟨_, rfl⟩
  have first : twins.indexer.index.map (Project.answer ⟨·, config, []⟩ twinDisk .plain .blocks
      (Session.forFile "u.go")) = some (.ok (.list [])) := rfl
  have second : shuffledTwins.indexer.index.map (Project.answer ⟨·, config, []⟩ twinDisk .plain .blocks
      (Session.forFile "u.go")) = some (.ok (.list [NoteSize.toValue ⟨⟨1, 2⟩, 1, 0⟩])) := rfl
  obtain ⟨left, reached, none⟩ := Option.map_eq_some_iff.mp first
  obtain ⟨right, there, one⟩ := Option.map_eq_some_iff.mp second
  refine ⟨left, right, config, reached, there, snapshot_shuffledTwins, configured, ?_⟩
  rw [none, one]
  intro same
  injection same with lists
  injection lists with lists
  cases lists

end Tracked

end ApiNotes
