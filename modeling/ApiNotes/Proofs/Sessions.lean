import ApiNotes.Proofs.Discovery
import ApiNotes.Proofs.Snapshots
import ApiNotes.Tools.Session

/-!
# Sessions and how they are reached

What a session can come to by indexing a project (`Session.rebuildWith_cases`) and by indexing one
file again (`Session.reindexFile_cases`). One tool alone does either (`Session.reindex_cases`), all
others leave the session as it is (`Session.handle_of_ne_reindex`). Every session that is reached
from the start holds an indexer of the standard patterns, and no path in its index is excluded
(`Session.Reached.sound`).
-/

namespace ApiNotes

/-- An indexer as a session makes it: of a place, with the standard patterns, and an index of paths
that are not excluded. -/
structure Indexer.IsServed (indexer : Indexer) : Prop where
  rooted : Path.IsPlace indexer.root.place
  patterns : indexer.patterns = standardPatterns
  excluded : indexer.excluded = Exclusion.standardPatterns
  admitted : ∀ index, indexer.index = some index → ∀ path ∈ index.files.keys,
    indexer.isExcluded path = false

namespace Indexer.IsServed

variable {indexer next : Indexer} {disk : Disk}

theorem build (served : indexer.IsServed) (built : indexer.build disk = .ok next) : next.IsServed := by
  obtain ⟨spots, index, discovered, rfl, follows⟩ := build_follows built
  refine ⟨served.rooted, served.patterns, served.excluded, fun other known path member => ?_⟩
  obtain rfl := Option.some.inj known
  obtain ⟨files, made, read⟩ := follows index rfl
  have same : index.files = files := congrArg Index.files made
  rcases exists_spot_of_foldl ((read.mem_keys path).mp (same ▸ member)) with none | ⟨spot, inside, rfl⟩
  · simp [Snapshot.empty] at none
  · exact not_isExcluded_of_discover discovered spot inside

theorem erase (served : indexer.IsServed) {index : Index} (known : indexer.index = some index)
    (path : Text) : Indexer.IsServed { indexer with index := some (index.erase path) } := by
  refine ⟨served.rooted, served.patterns, served.excluded, fun other held key member => ?_⟩
  obtain rfl := Option.some.inj held
  exact served.admitted index known key ((Table.mem_keys_erase _ _ _).mp member).2

theorem refresh (served : indexer.IsServed) {path : Text}
    (allowed : indexer.isExcluded (indexer.pathOf path) = false)
    (refreshed : indexer.refresh disk path = .ok next) : next.IsServed := by
  obtain ⟨index, known, ⟨-, rfl⟩ | ⟨text, file, -, -, rfl⟩⟩ := refresh_ok refreshed
  · exact served.erase known _
  · refine ⟨served.rooted, served.patterns, served.excluded, fun other held key member => ?_⟩
    obtain rfl := Option.some.inj held
    rcases (Table.mem_keys_put _ _ _ _).mp member with rfl | before
    · exact allowed
    · exact served.admitted index known key before

end Indexer.IsServed

/-- A path is its own path from the root once it is one. -/
theorem Indexer.pathOf_pathOf {indexer : Indexer} (rooted : Path.IsPlace indexer.root.place) (path : Text) :
    indexer.pathOf (indexer.pathOf path) = indexer.pathOf path := by
  rw [pathOf, pathOf, Path.resolve_fromRoot _ (Path.isPlace_resolve rooted path)]

namespace Session

variable {session : Session} {host : Host}

/-! ## What a call comes to -/

/-- Indexing a project with a configuration fails and leaves an indexer without an index, or ends
with a new indexer, index and project. -/
theorem rebuildWith_cases (session : Session) (host : Host) (config : Config) :
    (∃ error, (indexerFor host config).build host.disk = .error error ∧
      session.rebuildWith host config =
        ⟨{ session with config := some config, indexer := some (indexerFor host config) },
          [.indexing config.root], .error (.index error)⟩) ∨
    ∃ built index, (indexerFor host config).build host.disk = .ok built ∧ built.index = some index ∧
      session.rebuildWith host config =
        ⟨⟨some config, some built, some (.ofIndex index config)⟩,
          [.indexing config.root, .indexed index.totals (Project.ofIndex index config).chain],
          .ok ()⟩ := by
  unfold rebuildWith
  cases made : (indexerFor host config).build host.disk with
  | error error => exact .inl ⟨error, rfl, by simp only [made]⟩
  | ok built =>
    obtain ⟨-, index, -, rfl, -⟩ := Indexer.build_follows made
    exact .inr ⟨_, index, rfl, rfl, by simp only [made]⟩

/-- Indexing one file again skips an excluded one, fails and changes nothing, or changes what is
known of the file. -/
theorem reindexFile_cases {indexer : Indexer} {index : Index} {config : Config}
    (ready : session.ready? = some (indexer, index, config)) (host : Host) (path : Text) :
    (indexer.isExcluded (indexer.pathOf path) = true ∧ session.reindexFile host path =
      ⟨session, [],
        .ok ("Skipped '".toList ++ indexer.pathOf path ++ "': excluded from the index.".toList)⟩) ∨
    indexer.isExcluded (indexer.pathOf path) = false ∧
      ((∃ error, applyChange indexer host.disk (indexer.pathOf path)
          (changeOf indexer host.disk path) = .error error ∧
        session.reindexFile host path = ⟨session, [], .error (.index error)⟩) ∨
      ∃ next, applyChange indexer host.disk (indexer.pathOf path)
          (changeOf indexer host.disk path) = .ok next ∧
        session.reindexFile host path =
          ⟨⟨some config, some next, next.index.map (Project.ofIndex · config)⟩,
            [.changed (indexer.pathOf path) (changeOf indexer host.disk path)],
            .ok ("File '".toList ++ indexer.pathOf path ++ "' ".toList ++
              (changeOf indexer host.disk path).text ++ ['.'])⟩) := by
  unfold reindexFile
  simp only [ready]
  by_cases excluded : indexer.isExcluded (indexer.pathOf path) = true
  · exact .inl ⟨excluded, by rw [if_pos excluded]⟩
  · refine .inr ⟨by simpa using excluded, ?_⟩
    rw [if_neg excluded]
    cases applied : applyChange indexer host.disk (indexer.pathOf path)
        (changeOf indexer host.disk path) with
    | error error => exact .inl ⟨error, rfl, rfl⟩
    | ok next => exact .inr ⟨next, rfl, rfl⟩

/-- No one file is named to be indexed again, so that all are. -/
def AsksForAll (arguments : Arguments) : Prop :=
  ∀ value, arguments.lookup "file_path".toList = some value → value.isGiven = false

/-- The tool that brings the index up to date takes a path, takes everything, or refuses what is
no path. -/
theorem reindex_cases (session : Session) (host : Host) (arguments : Arguments) :
    (AsksForAll arguments ∧ session.reindex host arguments = session.reindexAll host) ∨
    (¬AsksForAll arguments ∧
      ((session.ready? = none ∧ session.reindex host arguments = session.reindexAll host) ∨
      (∃ path, path ≠ [] ∧ arguments.lookup "file_path".toList = some (.text path) ∧
        session.reindex host arguments = session.reindexFile host path) ∨
      ∃ kind, session.reindex host arguments = ⟨session, [], .error (.argument (.notPath kind))⟩)) := by
  unfold AsksForAll
  cases found : arguments.lookup "file_path".toList with
  | none => exact .inl ⟨by simp, by simp only [reindex, found]⟩
  | some value =>
    rw [show (∀ other, some value = some other → other.isGiven = false) ↔ value.isGiven = false by simp]
    by_cases text : ∃ path, value = .text path
    · obtain ⟨path, rfl⟩ := text
      cases path with
      | nil => exact .inl ⟨rfl, by simp only [reindex, found]⟩
      | cons c rest =>
        exact .inr ⟨by simp [Value.isGiven], .inr (.inl ⟨c :: rest, by simp, rfl, by simp only [reindex, found]⟩)⟩
    · have other : session.reindex host arguments =
          if !value.isGiven || session.ready?.isNone then session.reindexAll host
          else ⟨session, [], .error (.argument (.notPath value.kindText))⟩ := by
        cases value with
        | text path => exact absurd ⟨path, rfl⟩ text
        | _ => simp only [reindex, found]
      cases given : value.isGiven with
      | false => exact .inl ⟨rfl, by rw [other, given]; rfl⟩
      | true =>
        refine .inr ⟨by simp, ?_⟩
        cases ready : session.ready? with
        | none => exact .inl ⟨rfl, by rw [other, given, ready]; rfl⟩
        | some state => exact .inr (.inr ⟨value.kindText, by rw [other, given, ready]; rfl⟩)

theorem reindex_of_path (session : Session) (host : Host) {arguments : Arguments} {path : Text}
    (named : arguments.lookup "file_path".toList = some (.text path)) (some : path ≠ []) :
    session.reindex host arguments = session.reindexFile host path := by
  obtain ⟨c, rest, rfl⟩ := List.exists_cons_of_ne_nil some
  simp only [reindex, named]

/-- A question leaves the session as it is, and so does a tool that does not exist. -/
theorem handle_of_ne_reindex (session : Session) (host : Host) {name : Text} (arguments : Arguments)
    (other : Tool.ofName? name ≠ some .reindex) : (session.handle host name arguments).session = session := by
  unfold handle
  rw [if_neg other]

theorem handle_of_reindex (session : Session) (host : Host) {name : Text} (arguments : Arguments)
    (named : Tool.ofName? name = some .reindex) :
    session.handle host name arguments = session.reindex host arguments := by
  unfold handle
  rw [if_pos named]

/-! ## Sessions that can be reached -/

/-- A session after any number of calls, and of builds apart from calls, each with a disk, a
directory and an environment of its own. -/
inductive Reached : Session → Prop
  | start : Reached start
  | rebuild (session : Session) (host : Host) (given : Option Config) (reached : Reached session)
      (placed : Path.IsPlace host.directory) : Reached (session.rebuild host given).session
  | call (session : Session) (host : Host) (name : Text) (arguments : Arguments)
      (reached : Reached session) (placed : Path.IsPlace host.directory) :
      Reached (session.handle host name arguments).session

/-- What holds of every session that is reached: an indexer comes with a configuration, has the
standard patterns and indexes nothing that is excluded. -/
structure Sound (session : Session) : Prop where
  configured : ∀ indexer, session.indexer = some indexer → session.config.isSome = true
  served : ∀ indexer, session.indexer = some indexer → indexer.IsServed

theorem isServed_indexerFor (placed : Path.IsPlace host.directory) (config : Config) :
    (indexerFor host config).IsServed :=
  ⟨Path.isPlace_resolve placed config.root, rfl, rfl, fun _ known => by cases known⟩

theorem ready?_eq_some_iff {indexer : Indexer} {index : Index} {config : Config} :
    session.ready? = some (indexer, index, config) ↔
      session.indexer = some indexer ∧ indexer.index = some index ∧ session.config = some config := by
  simp only [ready?, bind, pure, Option.bind_eq_some_iff, Option.some.injEq, Prod.mk.injEq]
  constructor
  · rintro ⟨held, sessionHeld, found, known, settings, configured, rfl, rfl, rfl⟩
    exact ⟨sessionHeld, known, configured⟩
  · rintro ⟨sessionHeld, known, configured⟩
    exact ⟨indexer, sessionHeld, index, known, config, configured, rfl, rfl, rfl⟩

theorem isServed_applyChange {indexer next : Indexer} (served : indexer.IsServed) {disk : Disk}
    {path : Text} (allowed : indexer.isExcluded (indexer.pathOf path) = false) {change : FileChange}
    (applied : applyChange indexer disk (indexer.pathOf path) change = .ok next) : next.IsServed := by
  cases change with
  | refreshed =>
    rw [← Indexer.pathOf_pathOf served.rooted] at allowed
    exact served.refresh allowed applied
  | dropped =>
    obtain ⟨index, known, rfl⟩ := Indexer.drop_ok applied
    exact served.erase known _

namespace Sound

theorem rebuild (sound : session.Sound) (placed : Path.IsPlace host.directory) (given : Option Config) :
    (session.rebuild host given).session.Sound := by
  unfold Session.rebuild
  split
  · exact sound
  · rename_i config _
    have served := isServed_indexerFor placed config
    obtain ⟨error, -, outcome⟩ | ⟨built, index, made, -, outcome⟩ := rebuildWith_cases session host config
    · rw [outcome]
      exact ⟨fun _ _ => rfl, fun indexer known => Option.some.inj known ▸ served⟩
    · rw [outcome]
      exact ⟨fun _ _ => rfl, fun indexer known => Option.some.inj known ▸ served.build made⟩

theorem reindexFile (sound : session.Sound) (placed : Path.IsPlace host.directory) (path : Text) :
    (session.reindexFile host path).session.Sound := by
  cases ready : session.ready? with
  | none =>
    unfold Session.reindexFile
    rw [ready]
    exact sound.rebuild placed none
  | some state =>
    obtain ⟨indexer, index, config⟩ := state
    have served := sound.served indexer (ready?_eq_some_iff.mp ready).1
    obtain ⟨-, outcome⟩ | ⟨allowed, ⟨error, -, outcome⟩ | ⟨next, applied, outcome⟩⟩ :=
      reindexFile_cases ready host path
    · rw [outcome]
      exact sound
    · rw [outcome]
      exact sound
    · rw [outcome]
      exact ⟨fun _ _ => rfl, fun other known =>
        Option.some.inj known ▸ isServed_applyChange served allowed applied⟩

theorem handle (sound : session.Sound) (placed : Path.IsPlace host.directory) (name : Text)
    (arguments : Arguments) : (session.handle host name arguments).session.Sound := by
  by_cases named : Tool.ofName? name = some .reindex
  · rw [handle_of_reindex session host arguments named]
    obtain ⟨-, outcome⟩ | ⟨-, ⟨-, outcome⟩ | ⟨path, -, -, outcome⟩ | ⟨kind, outcome⟩⟩ :=
      reindex_cases session host arguments
    · rw [outcome]
      exact sound.rebuild placed none
    · rw [outcome]
      exact sound.rebuild placed none
    · rw [outcome]
      exact sound.reindexFile placed path
    · rw [outcome]
      exact sound
  · rw [handle_of_ne_reindex session host arguments named]
    exact sound

end Sound

/-- Every session that is reached is sound. -/
theorem Reached.sound (reached : session.Reached) : session.Sound := by
  induction reached with
  | start => exact ⟨by simp [Session.start], by simp [Session.start]⟩
  | rebuild session host given _ placed ih => exact ih.rebuild placed given
  | call session host name arguments _ placed ih => exact ih.handle placed name arguments

/-- A session that is reached and has an index is ready to bring single files up to date. -/
theorem Reached.ready (reached : session.Reached) {indexer : Indexer} {index : Index}
    (held : session.indexer = some indexer) (known : indexer.index = some index) :
    ∃ config, session.ready? = some (indexer, index, config) := by
  obtain ⟨config, configured⟩ := Option.isSome_iff_exists.mp (reached.sound.configured indexer held)
  exact ⟨config, ready?_eq_some_iff.mpr ⟨held, known, configured⟩⟩

/-- The small project, and a process in it. -/
def smallHost : Host := ⟨Tracked.smallDisk, ["p".toList], []⟩

/-- A session that has indexed the small project. -/
def smallSession : Session := (start.rebuild smallHost none).session

/-- The arguments that name a file. -/
def forFile (path : String) : Arguments := [("file_path".toList, .text path.toList)]

theorem reached_smallSession : smallSession.Reached := .rebuild start smallHost none .start (by decide)

end Session

end ApiNotes
