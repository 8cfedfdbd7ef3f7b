import ApiNotes.Proofs.Histories
import ApiNotes.Proofs.Navigation

/-!
# Whose file a path is answered for

A path text that is no stored path is answered for the first stored path that ends with it or that it
ends with (`Index.AnswersFor`), character by character. The two then have one file name just where
they share a slash or the shorter one begins a component of the longer one
(`Path.fileName_eq_iff`). Otherwise a question is answered for a file of another name, which happens
once the file that was meant is gone (`Tracked.answer_otherName`).
-/

namespace ApiNotes

/-! ## The last component of a path -/

/-- The last component of a path text. -/
def Path.fileName (path : Text) : Text := Text.afterLast '/' path

/-- Two path texts of which one ends with the other have the same file name just if they are the same,
if they share a slash, or if one continues the other after a slash. -/
theorem Path.fileName_eq_iff {path stored : Text} (fits : Index.Fits path stored) :
    fileName stored = fileName path ↔ stored = path ∨ ('/' ∈ path ∧ '/' ∈ stored) ∨
      '/' :: path <:+ stored ∨ '/' :: stored <:+ path := by
  have apart : ∀ {short long : Text}, short <:+ long → ¬ '/' :: long <:+ short := by
    intro short long ending longer
    have := ending.length_le
    have := longer.length_le
    simp only [List.length_cons] at this
    omega
  rcases fits with ending | ending
  · have shared : '/' ∈ path ↔ '/' ∈ path ∧ '/' ∈ stored := ⟨fun slash => ⟨slash, ending.subset slash⟩, And.left⟩
    rw [fileName, fileName, Text.afterLast_eq_iff_of_suffix ending, ← shared, eq_comm]
    simp only [apart ending, or_false]
  · have shared : '/' ∈ stored ↔ '/' ∈ path ∧ '/' ∈ stored := ⟨fun slash => ⟨ending.subset slash, slash⟩, And.right⟩
    rw [fileName, fileName, eq_comm, Text.afterLast_eq_iff_of_suffix ending, ← shared]
    simp only [apart ending, false_or]

/-! ## The stored path of an answer -/

namespace Index

variable {index : Index} {path stored : Text} {file : GoFile}

/-- A path text is answered for a stored path: it is that path, or it is none and that path is the first
one that fits it. -/
def AnswersFor (index : Index) (path stored : Text) : Prop :=
  (stored = path ∧ path ∈ index.files.keys) ∨
    path ∉ index.files.keys ∧ Fits path stored ∧ ∃ before after,
      index.files.keys = before ++ stored :: after ∧ ∀ earlier ∈ before, ¬Fits path earlier

theorem AnswersFor.stored_mem (answers : index.AnswersFor path stored) : stored ∈ index.files.keys := by
  obtain ⟨rfl, held⟩ | ⟨-, -, before, after, keys, -⟩ := answers
  · exact held
  · rw [keys]
    exact List.mem_append_right before List.mem_cons_self

theorem AnswersFor.fits (answers : index.AnswersFor path stored) : Fits path stored := by
  obtain ⟨rfl, -⟩ | ⟨-, fits, -⟩ := answers
  · exact .inl (List.suffix_refl _)
  · exact fits

theorem exists_answersFor_of_file? (single : index.files.keys.Nodup)
    (named : index.file? path = some file) :
    ∃ stored, index.AnswersFor path stored ∧ index.files.get? stored = some file := by
  cases held : index.files.get? path with
  | some other =>
    rw [file?_of_get? held] at named
    exact ⟨path, .inl ⟨rfl, Table.mem_keys_of_get? held⟩, held.trans named⟩
  | none =>
    simp only [file?, held] at named
    obtain ⟨⟨stored, other⟩, found, rfl⟩ := Option.map_eq_some_iff.mp named
    obtain ⟨fits, before, after, split, earlier⟩ := List.find?_eq_some_iff_append.mp found
    simp only [Bool.or_eq_true, Text.endsWith_iff] at fits
    refine ⟨stored, .inr ⟨(Table.get?_eq_none_iff _ path).mp held, fits, before.map (·.1), after.map (·.1),
      by simp [Table.keys, split], ?_⟩, ?_⟩
    · intro key member
      obtain ⟨⟨key, other⟩, among, rfl⟩ := List.mem_map.mp member
      have unfit : (Text.endsWith path key || Text.endsWith key path) = false := by
        simpa using earlier _ among
      rw [Fits, ← Text.endsWith_iff, ← Text.endsWith_iff, ← Bool.or_eq_true, unfit]
      simp
    · exact (Table.get?_eq_some_iff_mem _ single _ _).mpr (List.mem_of_find?_eq_some found)

theorem not_fits_of_file? (unnamed : index.file? path = none) :
    ∀ stored ∈ index.files.keys, ¬Fits path stored := by
  intro stored held fits
  obtain ⟨file, named⟩ := exists_file?_of_fits held fits
  rw [unnamed] at named
  cases named

end Index

/-! ## Answers about files -/

namespace Project

variable {index : Index} {arguments : Arguments} {path stored : Text}

theorem askFile_of_noSuchFile {project : Project} {ask : GoFile → Except CallError Value}
    (given : arguments.lookup "file_path".toList = some (.text path))
    (unnamed : project.index.file? path = none) :
    project.askFile arguments ask = .ok (Miss.noSuchFile path).toValue := by
  simp only [askFile, Arguments.require, given, Except.bind, Arguments.fileIn, unnamed]
  rfl

theorem askPosition_of_noSuchFile {project : Project} {reading : PositionReading} {value : Value}
    {ask : GoFile → Value → Value → Except ArgumentError Value}
    (given : arguments.lookup "file_path".toList = some (.text path))
    (unnamed : project.index.file? path = none)
    (answered : project.askPosition reading arguments ask = .ok value) :
    value = (Miss.noSuchFile path).toValue := by
  rw [askPosition, Arguments.require, given] at answered
  cases position : arguments.position reading with
  | error error =>
    rw [position] at answered
    cases answered
  | ok place =>
    rw [position] at answered
    simp only [Except.mapError, bind, Except.bind, Arguments.fileIn, unnamed] at answered
    exact (Except.ok.inj answered).symm

/-- Where no file is named there is nothing to tell. -/
theorem answer_of_noSuchFile {tool : Tool} (asked : tool ∈ Tool.aboutFile ∨ tool = .definitionAt)
    (given : arguments.lookup "file_path".toList = some (.text path)) (unnamed : index.file? path = none)
    {config : Config} {chain : List Navigation.Resolver} {disk : Disk} {reading : PositionReading}
    {value : Value}
    (answered : Project.answer ⟨index, config, chain⟩ disk reading tool arguments = .ok value) :
    value = (Miss.noSuchFile path).toValue := by
  simp only [Tool.aboutFile, List.mem_cons, List.not_mem_nil, or_false] at asked
  rcases asked with (rfl | rfl | rfl | rfl | rfl) | rfl
  · exact (Except.ok.inj ((askFile_of_noSuchFile given unnamed).symm.trans answered)).symm
  · exact (Except.ok.inj ((askFile_of_noSuchFile given unnamed).symm.trans answered)).symm
  · exact (Except.ok.inj ((askFile_of_noSuchFile given unnamed).symm.trans answered)).symm
  · exact (Except.ok.inj ((askFile_of_noSuchFile given unnamed).symm.trans answered)).symm
  · simp only [Project.answer] at answered
    exact askPosition_of_noSuchFile given unnamed answered
  · simp only [Project.answer] at answered
    exact askPosition_of_noSuchFile given unnamed answered

/-- A question about a file gets the answer for the stored path that its path text is answered for, which
has the same file name only under a condition on the two texts; where no stored path fits, there is no
such file. -/
theorem answer_forStored (index : Index) (single : index.files.keys.Nodup) (config : Config)
    (chain : List Navigation.Resolver) (disk : Disk) (reading : PositionReading) (tool : Tool)
    (asked : tool ∈ Tool.aboutFile ∨ tool = .definitionAt) (arguments : Arguments) (path : Text)
    (given : arguments.lookup "file_path".toList = some (.text path)) :
    (∃ stored, index.AnswersFor path stored ∧
        Project.answer ⟨index, config, chain⟩ disk reading tool arguments =
          Project.answer ⟨index, config, chain⟩ disk reading tool
            (("file_path".toList, .text stored) :: arguments) ∧
        (Path.fileName stored = Path.fileName path ↔ stored = path ∨ ('/' ∈ path ∧ '/' ∈ stored) ∨
          '/' :: path <:+ stored ∨ '/' :: stored <:+ path)) ∨
      (∀ stored ∈ index.files.keys, ¬Index.Fits path stored) ∧
        ∀ value, Project.answer ⟨index, config, chain⟩ disk reading tool arguments = .ok value →
          value = (Miss.noSuchFile path).toValue := by
  cases named : index.file? path with
  | none => exact .inr ⟨Index.not_fits_of_file? named, fun _ => answer_of_noSuchFile asked given named⟩
  | some file =>
    obtain ⟨stored, answers, found⟩ := Index.exists_answersFor_of_file? single named
    refine .inl ⟨stored, answers, ?_, Path.fileName_eq_iff answers.fits⟩
    have alike : Arguments.Alike index index arguments (("file_path".toList, .text stored) :: arguments) := by
      refine ⟨fun name other => ?_, ?_⟩
      · rw [List.lookup_cons, beq_eq_false_iff_ne.mpr other]
      · rw [List.lookup_cons_self, given, Option.map_some, Option.map_some, Arguments.fileIn,
          Arguments.fileIn, Index.file?_of_get? found, named]
    rcases asked with asked | rfl
    · exact alike.answer_file config chain chain asked disk disk reading
    · simp only [Project.answer]
      exact alike.askPosition config chain chain reading _

end Project

namespace Tracked

/-- Two files, of which the name of the second ends with that of the first. -/
def overlapDisk : Disk where
  directories := [["p".toList]]
  files := [(["p".toList, "a.go".toList], "package a\n".toList.map fun c => UInt8.ofNat c.toNat),
    (["p".toList, "ba.go".toList], "// godoc\n// @Summary b\n".toList.map fun c => UInt8.ofNat c.toNat)]

/-- An indexer of these files from which the first was dropped. -/
def bereft : Tracked := smallStart.run [(overlapDisk, .build), (overlapDisk, .drop "a.go".toList)]

theorem keys_of_bereft {index : Index} (reached : bereft.indexer.index = some index) :
    index.files.keys = ["ba.go".toList] := by
  have keys : bereft.indexer.index.map (·.files.keys) = some ["ba.go".toList] := rfl
  rw [reached] at keys
  exact Option.some.inj keys

/-- By its absolute path the second file is found. -/
theorem answer_forStored_absolute : ∃ index config, bereft.indexer.index = some index ∧
    Config.ofEnvironment "/p".toList [] = .ok config ∧
      Project.answer ⟨index, config, []⟩ overlapDisk .plain .blocks (Session.forFile "/p/ba.go") =
        Project.answer ⟨index, config, []⟩ overlapDisk .plain .blocks
          (("file_path".toList, .text "ba.go".toList) :: Session.forFile "/p/ba.go") ∧
      Path.fileName "ba.go".toList = Path.fileName "/p/ba.go".toList := by
  obtain ⟨index, reached⟩ := Option.isSome_iff_exists.mp (rfl : bereft.indexer.index.isSome = true)
  obtain ⟨config, configured⟩ : ∃ config, Config.ofEnvironment "/p".toList [] = .ok config := ⟨_, rfl⟩
  have keys := keys_of_bereft reached
  have single : index.files.keys.Nodup := by
    rw [keys]
    exact List.nodup_singleton _
  refine ⟨index, config, reached, configured, ?_⟩
  obtain ⟨stored, answers, same, named⟩ | ⟨unfit, -⟩ := Project.answer_forStored index single config []
    overlapDisk .plain .blocks (.inl (by decide)) (Session.forFile "/p/ba.go") "/p/ba.go".toList rfl
  · have held := answers.stored_mem
    rw [keys] at held
    obtain rfl : stored = "ba.go".toList := List.mem_singleton.mp held
    exact ⟨same, named.mpr (.inr (.inr (.inr ⟨"/p".toList, rfl⟩)))⟩
  · have held : "ba.go".toList ∈ index.files.keys := by
      rw [keys]
      exact List.mem_singleton_self _
    exact absurd (.inr ⟨"/p/".toList, rfl⟩) (unfit _ held)

/-- Asked for the file that was dropped, the index tells of the block of the other one. -/
theorem answer_otherName : ∃ index config, bereft.indexer.index = some index ∧
    Config.ofEnvironment "/p".toList [] = .ok config ∧ "a.go".toList ∉ index.files.keys ∧
      index.AnswersFor "a.go".toList "ba.go".toList ∧
      Path.fileName "ba.go".toList ≠ Path.fileName "a.go".toList ∧
      Project.answer ⟨index, config, []⟩ overlapDisk .plain .blocks (Session.forFile "a.go") =
        .ok (.list [NoteSize.toValue ⟨⟨1, 2⟩, 1, 0⟩]) := by
  obtain ⟨config, configured⟩ : ∃ config, Config.ofEnvironment "/p".toList [] = .ok config := ⟨_, rfl⟩
  have told : bereft.indexer.index.map (Project.answer ⟨·, config, []⟩ overlapDisk .plain .blocks
      (Session.forFile "a.go")) = some (.ok (.list [NoteSize.toValue ⟨⟨1, 2⟩, 1, 0⟩])) := rfl
  obtain ⟨index, reached, answer⟩ := Option.map_eq_some_iff.mp told
  have keys := keys_of_bereft reached
  have gone : "a.go".toList ∉ index.files.keys := by
    rw [keys]
    decide
  refine ⟨index, config, reached, configured, gone, .inr ⟨gone, .inl ⟨['b'], rfl⟩, [], [], keys, ?_⟩,
    by decide, answer⟩
  simp

end Tracked

end ApiNotes
