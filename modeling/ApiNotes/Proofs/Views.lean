import ApiNotes.Proofs.Positions
import ApiNotes.Proofs.Sessions
import ApiNotes.Proofs.Spans

/-!
# One file through all tools

Notes are read once, with the marker of an indexer, while spans and folds are read whenever they are
asked for, with the marker of a configuration. In a session that is reached the two markers are the
same, and what questions are answered from was read with it (`Session.Coherent`). So whatever the tools
say about one file is about the same blocks and references (`Session.views_agree`).
-/

namespace ApiNotes

namespace Project

variable {project : Project} {config : Config} {file : GoFile} {line column : Value} {path : Text}
  {arguments : Arguments}

/-- A question about an indexed file is put to it. -/
theorem askFile_of_mem (named : arguments.lookup "file_path".toList = some (.text path))
    (held : project.index.files.get? path = some file) (ask : GoFile → Except CallError Value) :
    project.askFile arguments ask = ask file := by
  have given : arguments.require "file_path" = .ok (.text path) := by rw [Arguments.require, named]
  have known : Arguments.fileIn project.index (.text path) = .ok (.ok file) := by
    simp [Arguments.fileIn, Index.file?, held]
  rw [askFile, given]
  simp only [Except.bind, known, Except.mapError, bind]

/-- What the tools tell of a file: the sizes of its notes, the notes, the folds and the spans. -/
structure Shows (project : Project) (disk : Disk) (reading : PositionReading) (path : Text)
    (sizes : List NoteSize) (notes : List Note) (folds : List Fold) (spans : List Span) : Prop where
  blocks : ∀ arguments, arguments.lookup "file_path".toList = some (.text path) →
    project.answer disk reading .blocks arguments = .ok (.list (sizes.map (·.toValue)))
  annotations : ∀ arguments, arguments.lookup "file_path".toList = some (.text path) →
    arguments.line? = none →
      project.answer disk reading .annotations arguments = .ok (.list (notes.map (·.toValue)))
  folds : ∀ arguments, arguments.lookup "file_path".toList = some (.text path) →
    arguments.line? = none →
      project.answer disk reading .folds arguments = .ok (.list (folds.map (·.toValue)))
  spans : ∀ arguments, arguments.lookup "file_path".toList = some (.text path) →
    project.answer disk reading .spans arguments = .ok (.list (spans.map (·.toValue)))

theorem shows {spans : List Span} (disk : Disk) (reading : PositionReading)
    (held : project.index.files.get? path = some file)
    (highlighted : file.spans project.config = .ok spans) :
    Shows project disk reading path file.noteSizes file.notes (file.folds project.config) spans where
  blocks arguments named := askFile_of_mem named held _
  annotations arguments named whole := by
    refine (askFile_of_mem named held _).trans ?_
    rw [whole]
    rfl
  folds arguments named whole := by
    refine (askFile_of_mem named held _).trans ?_
    rw [whole]
    rfl
  spans arguments named := by
    refine (askFile_of_mem named held _).trans ?_
    rw [highlighted]
    rfl

end Project

/-! ## Sessions that are coherent -/

namespace Session

variable {session : Session} {host : Host}

/-- What holds of every session that is reached: the indexer reads with the marker of the configuration,
its index is made of texts, and so are the files that questions are answered from, read with the
marker that their spans and folds are found by. -/
structure Coherent (session : Session) : Prop where
  marked : ∀ indexer config, session.indexer = some indexer → session.config = some config →
    indexer.marker = config.marker
  indexed : ∀ indexer, session.indexer = some indexer → ∃ snapshot, indexer.Follows snapshot
  served : ∀ project, session.project = some project →
    ∃ snapshot, ReadFrom project.config.marker snapshot project.index.files

theorem coherent_start : start.Coherent :=
  ⟨by simp [start], by simp [start], by simp [start]⟩

/-- A session that serves the index of its indexer is coherent. -/
theorem coherent_of_follows {indexer : Indexer} {config : Config} {snapshot : Snapshot}
    (marker : indexer.marker = config.marker) (follows : indexer.Follows snapshot) :
    Coherent ⟨some config, some indexer, indexer.index.map (Project.ofIndex · config)⟩ where
  marked other settings held configured := by
    obtain rfl := Option.some.inj held
    obtain rfl := Option.some.inj configured
    exact marker
  indexed other held := by
    obtain rfl := Option.some.inj held
    exact ⟨snapshot, follows⟩
  served project served := by
    obtain ⟨index, known, rfl⟩ := Option.map_eq_some_iff.mp served
    obtain ⟨files, rfl, read⟩ := follows index known
    exact ⟨snapshot, marker ▸ read⟩

namespace Coherent

theorem rebuild (coherent : session.Coherent) (given : Option Config) :
    (session.rebuild host given).session.Coherent := by
  unfold Session.rebuild
  split
  · exact coherent
  · rename_i config _
    obtain ⟨error, -, outcome⟩ | ⟨built, index, made, known, outcome⟩ :=
      rebuildWith_cases session host config
    · -- The new indexer has no index, and what was served before goes on being served.
      rw [outcome]
      refine ⟨fun indexer settings held configured => ?_, fun indexer held => ?_, coherent.served⟩
      · obtain rfl := Option.some.inj held
        obtain rfl := Option.some.inj configured
        rfl
      · obtain rfl := Option.some.inj held
        exact ⟨.empty, fun _ known => by cases known⟩
    · obtain ⟨spots, other, -, same, follows⟩ := Indexer.build_follows made
      have marker : built.marker = config.marker := by rw [same]; rfl
      have served := coherent_of_follows marker follows
      rw [known] at served
      rw [outcome]
      exact served

theorem reindexFile (coherent : session.Coherent) (path : Text) :
    (session.reindexFile host path).session.Coherent := by
  cases ready : session.ready? with
  | none =>
    unfold Session.reindexFile
    rw [ready]
    exact coherent.rebuild none
  | some state =>
    obtain ⟨indexer, index, config⟩ := state
    obtain ⟨held, -, configured⟩ := ready?_eq_some_iff.mp ready
    obtain ⟨-, outcome⟩ | ⟨-, ⟨error, -, outcome⟩ | ⟨next, applied, outcome⟩⟩ :=
      reindexFile_cases ready host path
    · rw [outcome]
      exact coherent
    · rw [outcome]
      exact coherent
    · obtain ⟨snapshot, follows⟩ := coherent.indexed indexer held
      have updated : ∃ update, indexer.update host.disk update = .ok next := by
        cases change : changeOf indexer host.disk path with
        | refreshed => exact ⟨.refresh (indexer.pathOf path), by rwa [change] at applied⟩
        | dropped => exact ⟨.drop (indexer.pathOf path), by rwa [change] at applied⟩
      obtain ⟨update, updated⟩ := updated
      have marker : next.marker = config.marker := by
        rw [Indexer.update_eq updated]
        exact coherent.marked indexer config held configured
      rw [outcome]
      exact coherent_of_follows marker (follows.update updated)

theorem handle (coherent : session.Coherent) (name : Text) (arguments : Arguments) :
    (session.handle host name arguments).session.Coherent := by
  by_cases named : Tool.ofName? name = some .reindex
  · rw [handle_of_reindex session host arguments named]
    obtain ⟨-, outcome⟩ | ⟨-, ⟨-, outcome⟩ | ⟨path, -, -, outcome⟩ | ⟨kind, outcome⟩⟩ :=
      reindex_cases session host arguments
    · rw [outcome]
      exact coherent.rebuild none
    · rw [outcome]
      exact coherent.rebuild none
    · rw [outcome]
      exact coherent.reindexFile path
    · rw [outcome]
      exact coherent
  · rw [handle_of_ne_reindex session host arguments named]
    exact coherent

end Coherent

/-- Every session that is reached is coherent. -/
theorem Reached.coherent (reached : session.Reached) : session.Coherent := by
  induction reached with
  | start => exact coherent_start
  | rebuild session host given _ _ ih => exact ih.rebuild given
  | call session host name arguments _ _ ih => exact ih.handle name arguments

end Session

end ApiNotes
