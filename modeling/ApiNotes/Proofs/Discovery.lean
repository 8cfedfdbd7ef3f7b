import ApiNotes.Proofs.Places
import ApiNotes.Proofs.Statuses
import ApiNotes.Index.Indexer
import Mathlib.Data.List.Basic

/-!
# Which files are discovered

A path pattern without steps up fits a file by the names on the way to it
(`PathPattern.mem_files_iff`), so whether a file is discovered depends on its own path and bytes
alone, as long as the disk is a tree (`Indexer.lists_iff`). A pattern with a step up looks at
other directories too: `a/../b.go` finds `b.go` only where there is a directory `a`.
-/

namespace ApiNotes

namespace PathPattern

/-- A pattern that only leads down: every name in it is one that a directory can hold. -/
def Descends (pattern : PathPattern) : Prop := ∀ name, .to name ∈ pattern → Path.IsName name

/-- Whether names lead along a pattern to a file. -/
def Fits : PathPattern → List Text → Prop
  | [], names => names = []
  | .anyDepth :: pattern, names =>
    ∃ deeper below, names = deeper ++ below ∧ below ≠ [] ∧ Fits pattern below
  | .named glob :: pattern, names =>
    ∃ name below, names = name :: below ∧ glob.admits name = true ∧ Fits pattern below
  | .to name :: pattern, names => ∃ below, names = name :: below ∧ Fits pattern below
  | .stay :: pattern, names => names ≠ [] ∧ Fits pattern names

variable {disk : Disk}

theorem mem_entries {directory place : Path} :
    place ∈ disk.entries directory ↔
      (place ∈ disk.directories ∨ place ∈ disk.files.map (·.1)) ∧ place ≠ [] ∧
        place.dropLast = directory := by
  rw [Disk.entries, List.mem_filter, List.mem_append]
  simp

/-- The names that a step takes from a directory. -/
def Leads (disk : Disk) (directory : Path) : PatternStep → List Text → Prop
  | .anyDepth, names => disk.isDirectory (directory ++ names) = true
  | .named glob, names =>
    ∃ name, names = [name] ∧ glob.admits name = true ∧ disk.holds (directory ++ [name]) = true
  | .to name, names => names = [name] ∧ disk.holds (directory ++ [name]) = true
  | .stay, names => names = []

theorem mem_directoriesFrom {directory place : Path} (opened : disk.isDirectory directory = true) :
    place ∈ disk.directoriesFrom directory ↔
      ∃ names, place = directory ++ names ∧ disk.isDirectory (directory ++ names) = true := by
  rw [Disk.directoriesFrom, List.mem_cons, List.mem_filter]
  constructor
  · rintro (rfl | ⟨inside, below⟩)
    · exact ⟨[], by simp, by simpa using opened⟩
    · simp only [Bool.and_eq_true, List.isPrefixOf_iff_prefix] at below
      obtain ⟨names, rfl⟩ := below.1
      exact ⟨names, rfl, by simp [Disk.isDirectory, inside]⟩
  · rintro ⟨names, rfl, held⟩
    by_cases still : names = []
    · exact .inl (by simp [still])
    · have inside : directory ++ names ∈ disk.directories := by
        simpa [Disk.isDirectory, still] using held
      exact .inr ⟨inside, by simp [still]⟩

/-- A step adds the names that it takes both to the place and to the names of a spot. -/
theorem mem_follow_iff {spot next : PatternSpot} {step : PatternStep}
    (descends : ∀ name, step = .to name → Path.IsName name) :
    next ∈ follow disk spot step ↔ disk.isDirectory spot.place = true ∧
      ∃ names, next = ⟨spot.place ++ names, spot.names ++ names⟩ ∧
        Leads disk spot.place step names := by
  unfold follow
  by_cases opened : disk.isDirectory spot.place = true
  · rw [if_neg (by simp [opened])]
    simp only [opened, true_and]
    rcases step with _ | glob | name | _
    · -- any number of directories
      simp only [List.mem_map, mem_directoriesFrom opened, Leads]
      constructor
      · rintro ⟨place, ⟨names, rfl, held⟩, rfl⟩
        exact ⟨names, by simp, held⟩
      · rintro ⟨names, rfl, held⟩
        exact ⟨_, ⟨names, rfl, held⟩, by simp⟩
    · -- an entry whose name a glob admits
      simp only [List.mem_filterMap, mem_entries, Leads]
      constructor
      · rintro ⟨place, ⟨held, some, inside⟩, made⟩
        obtain ⟨name, last⟩ : ∃ name, place.getLast? = Option.some name :=
          ⟨_, List.getLast?_eq_some_getLast some⟩
        have whole : place = spot.place ++ [name] := by
          rw [← inside, List.dropLast_append_getLast? name last]
        rw [last] at made
        simp only [Option.ite_none_right_eq_some, Option.some.injEq] at made
        obtain ⟨admitted, rfl⟩ := made
        exact ⟨[name], by rw [whole], name, rfl, admitted, whole ▸ Disk.holds_of_mem held⟩
      · rintro ⟨names, rfl, name, rfl, admitted, held⟩
        refine ⟨spot.place ++ [name], ⟨Disk.mem_of_holds held (by simp), by simp, by simp⟩, ?_⟩
        simp [admitted]
    · -- the entry of a name
      have isName := descends name rfl
      simp only [Path.step_name spot.place isName, Leads]
      constructor
      · intro member
        simp only [List.mem_ite_nil_right, List.mem_singleton] at member
        exact ⟨[name], member.2, rfl, member.1⟩
      · rintro ⟨names, rfl, rfl, held⟩
        simp [held]
    · -- nowhere
      simp only [List.mem_singleton, Leads]
      constructor
      · rintro rfl
        exact ⟨[], by simp, rfl⟩
      · rintro ⟨names, rfl, rfl⟩
        simp
  · rw [if_pos (by simpa using opened)]
    simp [opened]

/-- Names on the way to a file fit a pattern if a first step can take some of them and the rest
of the pattern fits the others. -/
theorem fits_cons_iff (tree : disk.IsTree) {directory : Path} {names : List Text}
    (file : disk.isFile (directory ++ names) = true) (step : PatternStep) (pattern : PathPattern) :
    Fits (step :: pattern) names ↔ disk.isDirectory directory = true ∧
      ∃ taken below, names = taken ++ below ∧ Leads disk directory step taken ∧ Fits pattern below := by
  have held := Disk.holds_of_isFile file
  have closed := tree.apart _ file
  rcases step with _ | glob | name | _
  · constructor
    · rintro ⟨deeper, below, rfl, some, fits⟩
      refine ⟨tree.isDirectory_above (by simp [some]) held, deeper, below, rfl, ?_, fits⟩
      exact tree.isDirectory_above some (by simpa using held)
    · rintro ⟨-, deeper, below, rfl, opened, fits⟩
      refine ⟨deeper, below, rfl, ?_, fits⟩
      rintro rfl
      simp only [List.append_nil] at closed
      exact absurd (closed.symm.trans opened) (by simp)
  · constructor
    · rintro ⟨name, below, rfl, admitted, fits⟩
      refine ⟨tree.isDirectory_above (by simp) held, [name], below, rfl, ⟨name, rfl, admitted, ?_⟩, fits⟩
      exact tree.holds_above (show disk.holds (directory ++ [name] ++ below) = true by simpa using held)
    · rintro ⟨-, taken, below, rfl, ⟨name, rfl, admitted, -⟩, fits⟩
      exact ⟨name, below, rfl, admitted, fits⟩
  · constructor
    · rintro ⟨below, rfl, fits⟩
      refine ⟨tree.isDirectory_above (by simp) held, [name], below, rfl, ⟨rfl, ?_⟩, fits⟩
      exact tree.holds_above (show disk.holds (directory ++ [name] ++ below) = true by simpa using held)
    · rintro ⟨-, taken, below, rfl, ⟨rfl, -⟩, fits⟩
      exact ⟨below, rfl, fits⟩
  · constructor
    · rintro ⟨some, fits⟩
      exact ⟨tree.isDirectory_above some held, [], names, rfl, rfl, fits⟩
    · rintro ⟨opened, taken, below, rfl, rfl, fits⟩
      refine ⟨?_, fits⟩
      rintro empty
      rw [empty, List.append_nil] at closed
      exact absurd (closed.symm.trans opened) (by simp)

/-- The spots that a pattern leads to from some spots. -/
def reach (disk : Disk) (pattern : PathPattern) (spots : List PatternSpot) : List PatternSpot :=
  pattern.foldl (fun spots step => spots.flatMap fun spot => follow disk spot step) spots

theorem Descends.tail {step : PatternStep} {pattern : PathPattern} (descends : Descends (step :: pattern)) :
    Descends pattern :=
  fun name member => descends name (List.mem_cons_of_mem _ member)

theorem exists_reach_iff (tree : disk.IsTree) {goal : Path} (file : disk.isFile goal = true)
    {pattern : PathPattern} (descends : Descends pattern) (spots : List PatternSpot) :
    (∃ spot ∈ reach disk pattern spots, spot.place = goal) ↔
      ∃ spot ∈ spots, ∃ names, goal = spot.place ++ names ∧ Fits pattern names := by
  induction pattern generalizing spots with
  | nil => simp [reach, Fits, eq_comm]
  | cons step pattern ih =>
    have named : ∀ name, step = .to name → Path.IsName name :=
      fun name equal => descends name (by simp [equal])
    rw [reach, List.foldl_cons, ← reach, ih descends.tail]
    simp only [List.mem_flatMap]
    constructor
    · rintro ⟨next, ⟨spot, member, followed⟩, below, rfl, fits⟩
      obtain ⟨opened, taken, rfl, leads⟩ := (mem_follow_iff named).mp followed
      refine ⟨spot, member, taken ++ below, by simp, ?_⟩
      exact (fits_cons_iff tree (by simpa using file) step pattern).mpr
        ⟨opened, taken, below, rfl, leads, fits⟩
    · rintro ⟨spot, member, names, rfl, fits⟩
      obtain ⟨opened, taken, below, rfl, leads, rest⟩ := (fits_cons_iff tree file step pattern).mp fits
      exact ⟨_, ⟨spot, member, (mem_follow_iff named).mpr ⟨opened, taken, rfl, leads⟩⟩, below,
        by simp, rest⟩

/-- The names of a spot lead to its place. -/
theorem place_eq_of_mem_reach {directory : Path} {pattern : PathPattern} (descends : Descends pattern)
    {spots : List PatternSpot} (known : ∀ spot ∈ spots, spot.place = directory ++ spot.names) :
    ∀ spot ∈ reach disk pattern spots, spot.place = directory ++ spot.names := by
  induction pattern generalizing spots with
  | nil => exact known
  | cons step pattern ih =>
    rw [reach, List.foldl_cons, ← reach]
    refine ih descends.tail fun next member => ?_
    obtain ⟨spot, inside, followed⟩ := List.mem_flatMap.mp member
    obtain ⟨-, names, rfl, -⟩ :=
      (mem_follow_iff fun name equal => descends name (by simp [equal])).mp followed
    simp [known spot inside]

/-- A pattern without steps up finds the files whose names fit it. -/
theorem mem_files_iff (tree : disk.IsTree) {directory goal : Path} {pattern : PathPattern}
    (descends : Descends pattern) :
    (∃ spot ∈ files disk directory pattern, spot.place = goal) ↔
      disk.isFile goal = true ∧ ∃ names, goal = directory ++ names ∧ Fits pattern names := by
  constructor
  · rintro ⟨spot, member, rfl⟩
    obtain ⟨reached, file⟩ := List.mem_filter.mp member
    obtain ⟨start, only, names, equal, fits⟩ :=
      (exists_reach_iff tree file descends [⟨directory, []⟩]).mp ⟨spot, reached, rfl⟩
    obtain rfl := List.mem_singleton.mp only
    exact ⟨file, names, equal, fits⟩
  · rintro ⟨file, names, equal, fits⟩
    obtain ⟨spot, reached, rfl⟩ := (exists_reach_iff tree file descends [⟨directory, []⟩]).mpr
      ⟨⟨directory, []⟩, by simp, names, equal, fits⟩
    exact ⟨spot, List.mem_filter.mpr ⟨reached, file⟩, rfl⟩

theorem place_eq_of_mem_files {directory : Path} {pattern : PathPattern} (descends : Descends pattern)
    {spot : PatternSpot} (member : spot ∈ files disk directory pattern) :
    spot.place = directory ++ spot.names := by
  have start : ∀ spot ∈ [PatternSpot.mk directory []], spot.place = directory ++ spot.names := by simp
  exact place_eq_of_mem_reach descends start spot (List.mem_filter.mp member).1

theorem readStep_to {part name : Text} (read : readStep part = .ok (.to name)) : part = name := by
  unfold readStep at read
  split_ifs at read
  · cases read
  · cases read
  · simpa using read

/-- A pattern text without `..` between its slashes descends. -/
theorem descends_of_read {text : Text} {pattern : PathPattern} (read : PathPattern.read text = .ok pattern)
    (no_up : Path.up ∉ text.splitOn '/') : Descends pattern := by
  intro name member
  unfold PathPattern.read at read
  split_ifs at read
  split at read
  · cases read
  · rename_i parts _ equal
    cases stepped : ((text.splitOn '/').filter fun part => part ≠ [] && part ≠ Path.here).mapM readStep with
    | error error =>
      rw [stepped] at read
      cases read
    | ok steps =>
      rw [stepped] at read
      obtain rfl : steps ++ _ = pattern := Except.ok.inj read
      have inside : PatternStep.to name ∈ steps := by
        rcases List.mem_append.mp member with inside | last
        · exact inside
        · split at last <;> simp at last
      obtain ⟨part, known, stepOfPart⟩ := (exists_of_mapM_ok stepped).2 _ inside
      obtain rfl := readStep_to stepOfPart
      obtain ⟨among, kept⟩ := List.mem_filter.mp known
      simp only [Bool.and_eq_true, decide_eq_true_eq] at kept
      exact ⟨kept.1, kept.2, fun up => no_up (up ▸ among), fun slash =>
        (Text.of_mem_splitOn among slash).2 rfl⟩

theorem ne_nil_of_read {text : Text} {pattern : PathPattern} (read : PathPattern.read text = .ok pattern) :
    pattern ≠ [] := by
  unfold PathPattern.read at read
  split_ifs at read
  split at read
  · cases read
  · rename_i parts some
    obtain ⟨part, rest, named⟩ := List.exists_cons_of_ne_nil some
    rw [named, List.mapM_cons] at read
    cases first : readStep part with
    | error error =>
      rw [first] at read
      cases read
    | ok step =>
      cases later : rest.mapM readStep with
      | error error => simp [first, later, bind, Except.bind] at read
      | ok steps =>
        simp only [first, later, bind, Except.bind, pure, Except.pure, Except.ok.injEq] at read
        simp [← read]

/-- A pattern means no file by no names. -/
theorem Fits.ne_nil {pattern : PathPattern} {names : List Text} (fits : Fits pattern names)
    (some : pattern ≠ []) : names ≠ [] := by
  obtain ⟨step, rest, rfl⟩ := List.exists_cons_of_ne_nil some
  rcases step with _ | glob | name | _
  · obtain ⟨deeper, below, rfl, more, -⟩ := fits
    simp [more]
  · obtain ⟨name, below, rfl, -⟩ := fits
    simp
  · obtain ⟨below, rfl, -⟩ := fits
    simp
  · exact fits.1

end PathPattern

namespace Indexer

theorem mem_of_mem_once {spot : PatternSpot} {spots : List PatternSpot} (member : spot ∈ once spots) :
    spot ∈ spots := by
  induction spots with
  | nil => exact member
  | cons first rest ih =>
    rw [once, List.foldr_cons, ← once] at member
    split at member
    · exact List.mem_cons_of_mem _ (ih member)
    · rcases List.mem_cons.mp member with rfl | later
      · simp
      · exact List.mem_cons_of_mem _ (ih later)

/-- Of the spots with the same names one stays. -/
theorem exists_mem_once {spot : PatternSpot} {spots : List PatternSpot} (member : spot ∈ spots) :
    ∃ kept ∈ once spots, kept.names = spot.names := by
  induction spots with
  | nil => simp at member
  | cons first rest ih =>
    rw [once, List.foldr_cons, ← once]
    rcases List.mem_cons.mp member with rfl | later
    · split
      · rename_i repeated
        obtain ⟨kept, top, same⟩ := (Option.any_eq_true _ _).mp repeated
        exact ⟨kept, List.mem_of_mem_head? top, by simpa using same⟩
      · exact ⟨spot, by simp, rfl⟩
    · obtain ⟨kept, inside, same⟩ := ih later
      split
      · exact ⟨kept, inside, same⟩
      · exact ⟨kept, List.mem_cons_of_mem _ inside, same⟩

/-- No include pattern has a step up. -/
def Descends (indexer : Indexer) : Prop := ∀ text ∈ indexer.patterns, Path.up ∉ text.splitOn '/'

/-- Whether a place is meant by an include pattern and not excluded, by its path alone. -/
def Admits (indexer : Indexer) (place : Path) : Prop :=
  indexer.isExcluded (Path.fromRoot indexer.root.place place) = false ∧
    ∃ text ∈ indexer.patterns, ∃ pattern, PathPattern.read text = .ok pattern ∧
      ∃ names, place = indexer.root.place ++ names ∧ pattern.Fits names

/-- Whether there is a file at a place that is no larger than the limit. -/
def Small (indexer : Indexer) (disk : Disk) (place : Path) : Prop :=
  ∃ limit bytes, indexer.sizeLimit = .ok limit ∧ disk.bytes? place = some bytes ∧
    ¬limit < Number.int bytes.length

def Lists (indexer : Indexer) (disk : Disk) (place : Path) : Prop :=
  ∃ spots, indexer.discover disk = .ok spots ∧ ∃ spot ∈ spots, spot.place = place

/-- What the include patterns mean is below the root. -/
theorem Admits.below {indexer : Indexer} {place : Path} (admits : indexer.Admits place) :
    ∃ names, names ≠ [] ∧ place = indexer.root.place ++ names := by
  obtain ⟨-, text, -, pattern, read, names, meant, fits⟩ := admits
  exact ⟨names, fits.ne_nil (PathPattern.ne_nil_of_read read), meant⟩

theorem Small.isFile {indexer : Indexer} {disk : Disk} {place : Path} (small : indexer.Small disk place) :
    disk.isFile place = true := by
  obtain ⟨_, bytes, -, there, -⟩ := small
  simp [Disk.isFile, there]

theorem filesOf_ok {indexer : Indexer} {disk : Disk} {text : Text} {found : List PatternSpot}
    (ok : indexer.filesOf disk text = .ok found) :
    ∃ pattern, PathPattern.read text = .ok pattern ∧ ∀ spot, spot ∈ found ↔
      spot ∈ pattern.files disk indexer.root.place ∧
        indexer.isExcluded (Path.fromRoot indexer.root.place spot.place) = false ∧
        ∃ limit, indexer.sizeLimit = .ok limit ∧ fits disk limit spot = true := by
  unfold filesOf at ok
  cases read : PathPattern.read text with
  | error error => simp [read, Except.mapError, bind, Except.bind] at ok
  | ok pattern =>
    refine ⟨pattern, rfl, fun spot => ?_⟩
    simp only [read, Except.mapError, bind, Except.bind] at ok
    cases limited : indexer.sizeLimit with
    | ok limit =>
      simp only [limited, pure, Except.pure] at ok
      obtain rfl := Except.ok.inj ok
      simp [List.mem_filter, and_comm]
    | error kind =>
      simp only [limited] at ok
      split at ok
      · rename_i none
        obtain rfl := Except.ok.inj ok
        simp
      · cases ok

/-- What is discovered is what the patterns list, each once by its names. -/
theorem discover_ok {indexer : Indexer} {disk : Disk} {spots : List PatternSpot}
    (ok : indexer.discover disk = .ok spots) :
    ∃ found, indexer.patterns.mapM (indexer.filesOf disk) = .ok found ∧
      (∀ spot ∈ spots, ∃ list ∈ found, spot ∈ list) ∧
      ∀ list ∈ found, ∀ spot ∈ list, ∃ kept ∈ spots, kept.names = spot.names := by
  unfold discover at ok
  cases gathered : indexer.patterns.mapM (indexer.filesOf disk) with
  | error error => simp [gathered, bind, Except.bind] at ok
  | ok found =>
    simp only [gathered, bind, Except.bind, pure, Except.pure] at ok
    obtain rfl := Except.ok.inj ok
    refine ⟨found, rfl, fun spot member => ?_, fun list inside spot here => ?_⟩
    · exact List.mem_flatten.mp ((Ordered.sort_perm _ _).mem_iff.mp (mem_of_mem_once member))
    · exact exists_mem_once ((Ordered.sort_perm _ _).mem_iff.mpr (List.mem_flatten.mpr ⟨list, inside, here⟩))

theorem discover_of_mapM {indexer : Indexer} {disk : Disk} {found : List (List PatternSpot)}
    (gathered : indexer.patterns.mapM (indexer.filesOf disk) = .ok found) :
    ∃ spots, indexer.discover disk = .ok spots := by
  simp [discover, gathered, bind, Except.bind, pure, Except.pure]

theorem small_iff {indexer : Indexer} {disk : Disk} {spot : PatternSpot} :
    indexer.Small disk spot.place ↔ disk.isFile spot.place = true ∧
      ∃ limit, indexer.sizeLimit = .ok limit ∧ fits disk limit spot = true := by
  unfold Small fits Disk.isFile
  cases disk.bytes? spot.place <;> simp

/-- A pattern lists the files that it means and that are not excluded and small enough. -/
theorem mem_filesOf_iff {indexer : Indexer} {disk : Disk} (tree : disk.IsTree) {text : Text}
    (no_up : Path.up ∉ text.splitOn '/') {found : List PatternSpot}
    (ok : indexer.filesOf disk text = .ok found) (place : Path) :
    (∃ spot ∈ found, spot.place = place) ↔
      (∃ pattern, PathPattern.read text = .ok pattern ∧
        ∃ names, place = indexer.root.place ++ names ∧ pattern.Fits names) ∧
      indexer.isExcluded (Path.fromRoot indexer.root.place place) = false ∧
      indexer.Small disk place := by
  obtain ⟨pattern, read, listed⟩ := filesOf_ok ok
  have descends := PathPattern.descends_of_read read no_up
  constructor
  · rintro ⟨spot, member, rfl⟩
    obtain ⟨inside, kept, limited⟩ := (listed spot).mp member
    obtain ⟨file, meant⟩ := (PathPattern.mem_files_iff tree descends).mp ⟨spot, inside, rfl⟩
    exact ⟨⟨pattern, read, meant⟩, kept, small_iff.mpr ⟨file, limited⟩⟩
  · rintro ⟨⟨other, readOther, meant⟩, kept, small⟩
    obtain rfl : pattern = other := Except.ok.inj (read.symm.trans readOther)
    obtain ⟨spot, inside, rfl⟩ := (PathPattern.mem_files_iff tree descends).mpr ⟨small.isFile, meant⟩
    exact ⟨spot, (listed spot).mpr ⟨inside, kept, (small_iff.mp small).2⟩, rfl⟩

/-- Nothing that is excluded is discovered. -/
theorem not_isExcluded_of_discover {indexer : Indexer} {disk : Disk} {spots : List PatternSpot}
    (ok : indexer.discover disk = .ok spots) : ∀ spot ∈ spots,
      indexer.isExcluded (Path.fromRoot indexer.root.place spot.place) = false := by
  intro spot member
  obtain ⟨found, gathered, listed, -⟩ := discover_ok ok
  obtain ⟨list, inside, here⟩ := listed spot member
  obtain ⟨text, -, files⟩ := (exists_of_mapM_ok gathered).2 list inside
  obtain ⟨pattern, -, members⟩ := filesOf_ok files
  exact ((members spot).mp here).2.1

/-- Discovery that succeeds lists a file if the patterns admit its path and it is small enough:
other files have no part in it. -/
theorem lists_iff {indexer : Indexer} {disk : Disk} (tree : disk.IsTree) (descends : indexer.Descends)
    {spots : List PatternSpot} (ok : indexer.discover disk = .ok spots) (place : Path) :
    (∃ spot ∈ spots, spot.place = place) ↔ indexer.Admits place ∧ indexer.Small disk place := by
  obtain ⟨found, gathered, listed, kept⟩ := discover_ok ok
  obtain ⟨down, back⟩ := exists_of_mapM_ok gathered
  -- A spot is where its names lead, whichever pattern it comes from.
  have led : ∀ list ∈ found, ∀ spot ∈ list, spot.place = indexer.root.place ++ spot.names := by
    intro list inside spot here
    obtain ⟨text, known, files⟩ := back list inside
    obtain ⟨pattern, read, members⟩ := filesOf_ok files
    exact PathPattern.place_eq_of_mem_files (PathPattern.descends_of_read read (descends text known))
      ((members spot).mp here).1
  constructor
  · rintro ⟨spot, member, rfl⟩
    obtain ⟨list, inside, here⟩ := listed spot member
    obtain ⟨text, known, files⟩ := back list inside
    obtain ⟨meant, allowed, small⟩ :=
      (mem_filesOf_iff tree (descends text known) files spot.place).mp ⟨spot, here, rfl⟩
    exact ⟨⟨allowed, text, known, meant⟩, small⟩
  · rintro ⟨⟨allowed, text, known, meant⟩, small⟩
    obtain ⟨list, inside, files⟩ := down text known
    obtain ⟨spot, here, rfl⟩ := (mem_filesOf_iff tree (descends text known) files place).mpr
      ⟨meant, allowed, small⟩
    obtain ⟨other, member, same⟩ := kept list inside spot here
    obtain ⟨list', inside', here'⟩ := listed other member
    exact ⟨other, member, by rw [led list' inside' other here', led list inside spot here, same]⟩

theorem exists_filesOf_iff {indexer : Indexer} {disk : Disk} (tree : disk.IsTree) {text : Text}
    (no_up : Path.up ∉ text.splitOn '/') :
    (∃ found, indexer.filesOf disk text = .ok found) ↔
      ∃ pattern, PathPattern.read text = .ok pattern ∧
        ((∃ limit, indexer.sizeLimit = .ok limit) ∨ ∀ place, disk.isFile place = true →
          indexer.isExcluded (Path.fromRoot indexer.root.place place) = false →
          ¬∃ names, place = indexer.root.place ++ names ∧ pattern.Fits names) := by
  unfold filesOf
  cases read : PathPattern.read text with
  | error error => simp [Except.mapError, bind, Except.bind]
  | ok pattern =>
    have descends := PathPattern.descends_of_read read no_up
    cases limited : indexer.sizeLimit with
    | ok limit => simp [Except.mapError, bind, Except.bind, pure, Except.pure]
    | error kind =>
      simp only [Except.mapError, bind, Except.bind, Except.ok.injEq, exists_eq_left', reduceCtorEq,
        exists_false, false_or]
      constructor
      · rintro ⟨found, ok⟩ place file allowed meant
        obtain ⟨spot, inside, rfl⟩ := (PathPattern.mem_files_iff tree descends).mpr ⟨file, meant⟩
        split at ok
        · rename_i none
          have gone := List.filter_eq_nil_iff.mp (List.isEmpty_iff.mp none) spot inside
          simp [allowed] at gone
        · cases ok
      · intro nothing
        refine ⟨[], ?_⟩
        rw [if_pos]
        · rfl
        · rw [List.isEmpty_iff, List.filter_eq_nil_iff]
          intro spot inside kept
          obtain ⟨file, meant⟩ := (PathPattern.mem_files_iff tree descends).mp ⟨spot, inside, rfl⟩
          exact nothing spot.place file (by simpa using kept) meant

/-- Discovery succeeds if every include pattern can be read and, should the size limit be no
number, there is no file to compare with it. -/
theorem exists_discover_iff {indexer : Indexer} {disk : Disk} (tree : disk.IsTree)
    (descends : indexer.Descends) :
    (∃ spots, indexer.discover disk = .ok spots) ↔
      (∀ text ∈ indexer.patterns, ∃ pattern, PathPattern.read text = .ok pattern) ∧
        ((∃ limit, indexer.sizeLimit = .ok limit) ∨
          ∀ place, disk.isFile place = true → ¬indexer.Admits place) := by
  constructor
  · rintro ⟨spots, ok⟩
    obtain ⟨found, gathered, -, -⟩ := discover_ok ok
    have each : ∀ text ∈ indexer.patterns, ∃ found, indexer.filesOf disk text = .ok found := by
      intro text known
      obtain ⟨list, -, files⟩ := (exists_of_mapM_ok gathered).1 text known
      exact ⟨list, files⟩
    refine ⟨fun text known => ?_, ?_⟩
    · obtain ⟨pattern, read, -⟩ := (exists_filesOf_iff tree (descends text known)).mp (each text known)
      exact ⟨pattern, read⟩
    · by_cases limited : ∃ limit, indexer.sizeLimit = .ok limit
      · exact .inl limited
      · refine .inr ?_
        rintro place file ⟨allowed, text, known, pattern, read, meant⟩
        obtain ⟨other, readOther, limit | nothing⟩ :=
          (exists_filesOf_iff tree (descends text known)).mp (each text known)
        · exact limited limit
        · obtain rfl : pattern = other := Except.ok.inj (read.symm.trans readOther)
          exact nothing place file allowed meant
  · rintro ⟨readable, limited⟩
    have each : ∀ text ∈ indexer.patterns, ∃ found, indexer.filesOf disk text = .ok found := by
      intro text known
      obtain ⟨pattern, read⟩ := readable text known
      refine (exists_filesOf_iff tree (descends text known)).mpr ⟨pattern, read, ?_⟩
      exact limited.imp_right fun nothing place file allowed meant =>
        nothing place file ⟨allowed, text, known, pattern, read, meant⟩
    obtain ⟨found, gathered⟩ := (exists_mapM_iff _).mpr each
    exact discover_of_mapM gathered

end Indexer

end ApiNotes
