import ApiNotes.Proofs.Incremental
import ApiNotes.Proofs.Sessions

/-!
# Which files a session admits

There are two ways into the index of a session. A build admits the Go files below the root that
are not excluded and small enough (`Indexer.IsServed.lists_iff`). A single file that is indexed
again is admitted where its path text leads to any file, whatever its name and size
(`Session.mem_keys_applyChange_iff`). So both agree about a path just where it is excluded or the
two conditions coincide (`Session.reindex_holdsWhatIsListed_iff`).
-/

namespace ApiNotes

/-! ## Names of Go files -/

/-- A place of a Go file, by its name, somewhere below a root. -/
def IsGoBelow (root place : Path) : Prop :=
  ∃ names name, place = root ++ names ++ [name] ∧ ".go".toList <:+ name

theorem PathPattern.fits_standard_iff (names : List Text) :
    Fits [.anyDepth, .named (.star :: ".go".toList.map .exactly)] names ↔
      ∃ above name, names = above ++ [name] ∧ ".go".toList <:+ name := by
  simp only [Fits, Glob.admits_star_iff, Glob.admits_exactly_iff]
  constructor
  · rintro ⟨above, below, rfl, -, name, rest, rfl, ⟨lead, tail, rfl, rfl⟩, rfl⟩
    exact ⟨above, _, rfl, lead, rfl⟩
  · rintro ⟨above, name, rfl, lead, rfl⟩
    exact ⟨above, [lead ++ ".go".toList], rfl, by simp, _, [], rfl, ⟨lead, _, rfl, rfl⟩, rfl⟩

namespace Indexer

variable {indexer : Indexer} {disk : Disk}

theorem IsServed.descends (served : indexer.IsServed) : indexer.Descends := by
  unfold Descends
  rw [served.patterns]
  decide

theorem IsServed.admits_iff (served : indexer.IsServed) (place : Path) :
    indexer.Admits place ↔ indexer.isExcluded (Path.fromRoot indexer.root.place place) = false ∧
      IsGoBelow indexer.root.place place := by
  have read : PathPattern.read "**/*.go".toList =
      .ok [.anyDepth, .named (.star :: ".go".toList.map .exactly)] := by rfl
  unfold Admits IsGoBelow
  rw [served.patterns, standardPatterns]
  simp only [List.mem_singleton, exists_eq_left, read, Except.ok.injEq, exists_eq_left',
    PathPattern.fits_standard_iff]
  refine and_congr_right fun _ => ?_
  constructor
  · rintro ⟨names, rfl, above, name, rfl, ending⟩
    exact ⟨above, name, by simp, ending⟩
  · rintro ⟨above, name, rfl, ending⟩
    exact ⟨above ++ [name], by simp, above, name, rfl, ending⟩

/-- A build lists the Go files below the root that are not excluded and small enough. -/
theorem IsServed.lists_iff (served : indexer.IsServed) (tree : disk.IsTree) (place : Path) :
    indexer.Lists disk place ↔ indexer.isExcluded (Path.fromRoot indexer.root.place place) = false ∧
      IsGoBelow indexer.root.place place ∧ indexer.Small disk place := by
  rw [← and_assoc, ← served.admits_iff]
  constructor
  · rintro ⟨spots, ok, found⟩
    exact (Indexer.lists_iff tree served.descends ok place).mp found
  · rintro ⟨admits, small⟩
    obtain ⟨limit, -, limited, -⟩ := id small
    have readable : ∀ text ∈ indexer.patterns, ∃ pattern, PathPattern.read text = .ok pattern := by
      intro text known
      rw [served.patterns] at known
      obtain rfl := List.mem_singleton.mp known
      exact ⟨_, rfl⟩
    obtain ⟨spots, ok⟩ :=
      (exists_discover_iff tree served.descends).mpr ⟨readable, .inl ⟨limit, limited⟩⟩
    exact ⟨spots, ok, (Indexer.lists_iff tree served.descends ok place).mpr ⟨admits, small⟩⟩

/-- The path text of a file from the root finds it as long as the root is a directory. -/
theorem textAt?_fromRoot (indexer : Indexer) (tree : disk.IsTree) {place : Path} {text : Text}
    (found : disk.text? place = some text) :
    indexer.textAt? disk (Path.fromRoot indexer.root.place place) =
      .ok (if disk.isDirectory indexer.root.place = true then some text else none) := by
  obtain ⟨isPlace, clean⟩ := tree.names place (Disk.holds_of_isFile (Disk.isFile_of_text? found))
  have no_null : '\x00' ∉ Path.fromRoot indexer.root.place place := by
    intro member
    obtain dot | slash | ⟨name, among, inside⟩ := Path.of_mem_fromRoot member
    · exact absurd dot (by decide)
    · exact absurd slash (by decide)
    · exact clean name among inside
  have meant := Path.resolve_fromRoot indexer.root.place isPlace
  split
  · rename_i opened
    rw [textAt?_normal tree (Path.normal_fromRoot _ isPlace) no_null fun _ => opened, meant, found]
  · rename_i closed
    have relative := Path.isAbsolute_fromRoot indexer.root.place isPlace
    rw [textAt?, if_neg (by simpa using no_null), relative, if_neg (by simp),
      Disk.read_of_not_isDirectory relative (by simpa using closed)]

end Indexer

namespace Session

variable {session : Session} {host : Host} {indexer : Indexer} {disk : Disk}

theorem exists_text_of_leadsToFile {path : Text} (leads : leadsToFile indexer disk path = true) :
    ∃ text, disk.text? (Path.resolve indexer.root.place path) = some text := by
  unfold leadsToFile at leads
  split at leads
  · rename_i text found
    by_cases no_null : '\x00' ∈ path
    · rw [Indexer.textAt?, if_pos (by simpa using no_null)] at found
      cases found
    · obtain ⟨other, ok, sound⟩ := Indexer.textAt?_ok indexer disk no_null
      rw [ok] at found
      exact ⟨text, sound text (Except.ok.inj found)⟩
  · cases leads

/-- A file that is indexed again is in the index just if its path text leads to a file and there is
a root to read it from. -/
theorem mem_keys_applyChange_iff (tree : disk.IsTree) {path : Text} {next : Indexer}
    (applied : applyChange indexer disk (indexer.pathOf path) (changeOf indexer disk path) = .ok next)
    (rooted : Path.IsPlace indexer.root.place) :
    ∃ after, next = { indexer with index := some after } ∧
      (indexer.pathOf path ∈ after.files.keys ↔
        leadsToFile indexer disk path = true ∧ disk.isDirectory indexer.root.place = true) := by
  unfold changeOf at applied
  by_cases leads : leadsToFile indexer disk path = true
  · obtain ⟨text, found⟩ := exists_text_of_leadsToFile leads
    have read := Indexer.textAt?_fromRoot indexer tree found
    rw [if_pos leads] at applied
    obtain ⟨index, -, ⟨nothing, rfl⟩ | ⟨_, file, there, -, rfl⟩⟩ := Indexer.refresh_ok applied
    · rw [Indexer.pathOf, read] at nothing
      have closed : disk.isDirectory indexer.root.place ≠ true := by
        intro opened
        simp [opened] at nothing
      refine ⟨_, rfl, ?_⟩
      rw [Indexer.pathOf_pathOf rooted]
      simp [Index.erase, Index.ofFiles, Table.mem_keys_erase, closed]
    · rw [Indexer.pathOf, read] at there
      have opened : disk.isDirectory indexer.root.place = true := by
        by_contra closed
        simp [closed] at there
      refine ⟨_, rfl, ?_⟩
      rw [Indexer.pathOf_pathOf rooted]
      simp [Index.put, Index.ofFiles, Table.mem_keys_put, opened, leads]
  · rw [if_neg leads] at applied
    obtain ⟨index, -, rfl⟩ := Indexer.drop_ok applied
    exact ⟨_, rfl, by simp [Index.erase, Index.ofFiles, Table.mem_keys_erase, leads]⟩

/-- About what a path text means, the index of a session agrees with what its indexer discovers. -/
def HoldsWhatIsListed (session : Session) (disk : Disk) (path : Text) : Prop :=
  ∃ indexer index, session.indexer = some indexer ∧ indexer.index = some index ∧
    (indexer.pathOf path ∈ index.files.keys ↔
      indexer.Lists disk (Path.resolve indexer.root.place path))

theorem holdsWhatIsListed_iff {index : Index} (held : session.indexer = some indexer)
    (known : indexer.index = some index) (disk : Disk) (path : Text) :
    session.HoldsWhatIsListed disk path ↔ (indexer.pathOf path ∈ index.files.keys ↔
      indexer.Lists disk (Path.resolve indexer.root.place path)) := by
  simp [HoldsWhatIsListed, held, known]

/-- After a file was indexed again the index agrees about it with a build just if it is excluded, or
its path text leads to a file, from a root that is there, exactly when it is a Go file below the
root and small enough. -/
theorem reindex_holdsWhatIsListed_iff (session : Session) (host : Host) (arguments : Arguments)
    (path text : Text) (indexer : Indexer) (index : Index) (reached : session.Reached)
    (held : session.indexer = some indexer) (known : indexer.index = some index)
    (tree : host.disk.IsTree) (named : arguments.lookup "file_path".toList = some (.text path))
    (given : path ≠ [])
    (succeeds : (session.handle host "reindex".toList arguments).answer = .ok text) :
    (session.handle host "reindex".toList arguments).session.HoldsWhatIsListed host.disk path ↔
      indexer.isExcluded (indexer.pathOf path) = true ∨
        (leadsToFile indexer host.disk path = true ∧
            host.disk.isDirectory indexer.root.place = true ↔
          IsGoBelow indexer.root.place (Path.resolve indexer.root.place path) ∧
            indexer.Small host.disk (Path.resolve indexer.root.place path)) := by
  have served := reached.sound.served indexer held
  have listed := served.lists_iff tree (Path.resolve indexer.root.place path)
  obtain ⟨config, ready⟩ := reached.ready held known
  rw [handle_of_reindex session host arguments (by decide), reindex_of_path session host named given]
    at succeeds ⊢
  obtain ⟨excluded, outcome⟩ | ⟨allowed, ⟨error, -, outcome⟩ | ⟨next, applied, outcome⟩⟩ :=
    reindexFile_cases ready host path
  · rw [outcome, holdsWhatIsListed_iff held known, listed]
    have absent : indexer.pathOf path ∉ index.files.keys := by
      intro member
      rw [served.admitted index known _ member] at excluded
      cases excluded
    have unlisted : indexer.isExcluded
        (Path.fromRoot indexer.root.place (Path.resolve indexer.root.place path)) ≠ false := by
      rw [← Indexer.pathOf, excluded]
      simp
    simp [absent, unlisted, excluded]
  · rw [outcome] at succeeds
    cases succeeds
  · obtain ⟨after, rfl, member⟩ := mem_keys_applyChange_iff tree applied served.rooted
    rw [outcome, holdsWhatIsListed_iff rfl rfl]
    change (indexer.pathOf path ∈ after.files.keys ↔
      indexer.Lists host.disk (Path.resolve indexer.root.place path)) ↔ _
    rw [member, listed, ← Indexer.pathOf]
    simp [allowed]

/-- The one file of the small project is indexed again. -/
theorem reindex_holdsWhatIsListed_small :
    (smallSession.handle smallHost "reindex".toList (forFile "a.go")).session.HoldsWhatIsListed
      smallHost.disk "a.go".toList := by
  refine (reindex_holdsWhatIsListed_iff smallSession smallHost (forFile "a.go") "a.go".toList _ _ _
    reached_smallSession rfl rfl (by decide) rfl (by decide) rfl).mpr (.inr ?_)
  exact iff_of_true ⟨by decide, by decide⟩
    ⟨⟨[], "a.go".toList, by decide, by decide⟩, _, _, rfl, rfl, by decide⟩

/-- A process in the small project with a file of notes. -/
def notedHost : Host := ⟨Indexer.notedDisk, ["p".toList], []⟩

/-- A file of notes is indexed again though a build leaves it out, and a Go file is dropped though a
build finds it, for it is named by way of a directory that is not there. -/
theorem reindex_holds_unlisted :
    smallSession.Reached ∧
    (∃ text, (smallSession.handle notedHost "reindex".toList (forFile "notes.txt")).answer = .ok text ∧
      ¬(smallSession.handle notedHost "reindex".toList
        (forFile "notes.txt")).session.HoldsWhatIsListed notedHost.disk "notes.txt".toList) ∧
    ∃ text, (smallSession.handle smallHost "reindex".toList (forFile "d/../a.go")).answer = .ok text ∧
      ¬(smallSession.handle smallHost "reindex".toList
        (forFile "d/../a.go")).session.HoldsWhatIsListed smallHost.disk "d/../a.go".toList := by
  refine ⟨reached_smallSession, ⟨_, rfl, ?_⟩, _, rfl, ?_⟩
  · rw [holdsWhatIsListed_iff rfl rfl]
    intro agrees
    obtain ⟨spots, ok, spot, listed, placed⟩ := agrees.mp (by decide)
    obtain rfl : [⟨["p".toList, "a.go".toList], ["a.go".toList]⟩] = spots := Except.ok.inj ok
    rw [List.mem_singleton.mp listed] at placed
    exact absurd placed (by decide)
  · rw [holdsWhatIsListed_iff rfl rfl]
    intro agrees
    have listed := agrees.mpr ⟨_, rfl, _, List.mem_singleton.mpr rfl, by decide⟩
    exact absurd listed (by decide)

end Session

end ApiNotes
