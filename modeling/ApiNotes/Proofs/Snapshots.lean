import ApiNotes.Proofs.Declarations
import ApiNotes.Index.Indexer
import Mathlib.Algebra.BigOperators.Group.List.Basic
import Mathlib.Algebra.GroupWithZero.Nat

/-!
# What an index holds

An indexer keeps no texts, only what it made of them. A `Snapshot` holds the texts that it read
last, and an index `Reflects` a snapshot: its files are made of these texts, its table lists
their declarations and its totals count them. Every run of an indexer, over disks that change in
any way, leads to an index that reflects the texts read on the way (`Tracked.run_reflects`), and
two runs that last read the same texts lead to the same index.
-/

namespace ApiNotes

/-- One declaration stands before another: in an earlier file, or on an earlier line. -/
def Site.Before (a b : Site) : Prop :=
  (a.file ≠ b.file ∧ Text.le a.file b.file = true) ∨ (a.file = b.file ∧ a.line < b.line)

/-- Texts of files by their paths from the root. -/
abbrev Snapshot := Text → Option Text

namespace Snapshot

def empty : Snapshot := fun _ => none

def put (snapshot : Snapshot) (path text : Text) : Snapshot :=
  fun other => if other = path then some text else snapshot other

def erase (snapshot : Snapshot) (path : Text) : Snapshot :=
  fun other => if other = path then none else snapshot other

/-- The file at a spot was read. -/
def readSpot (root : Path) (disk : Disk) (snapshot : Snapshot) (spot : PatternSpot) : Snapshot :=
  match disk.text? spot.place with
  | some text => snapshot.put (Path.fromRoot root spot.place) text
  | none => snapshot

/-- The files at some spots were read one after another, and nothing else. -/
def ofSpots (root : Path) (disk : Disk) (spots : List PatternSpot) : Snapshot :=
  spots.foldl (readSpot root disk) empty

end Snapshot

namespace Index

/-- An index holds what the texts of a snapshot say, and nothing else. -/
structure Reflects (root : Root) (marker : Text) (snapshot : Snapshot) (index : Index) : Prop where
  root : index.root = root
  /-- The files are those of the snapshot, one to a path. -/
  single : index.files.keys.Nodup
  keys : ∀ path, path ∈ index.files.keys ↔ (snapshot path).isSome
  /-- Each file is what its text says under its path. -/
  files : ∀ path text, snapshot path = some text → ∃ file, index.files.get? path = some file ∧
    GoFile.ofSource path marker text = .ok file ∧ file.name = path
  /-- Every declaration is listed once, under its qualified name. -/
  declared : ∀ path file decl, index.files.get? path = some file → decl ∈ file.types →
    index.types.all.count (file.site path decl) = 1 ∧
      ∃ sites, index.types.get? (file.qualify decl.name) = some sites ∧ file.site path decl ∈ sites
  /-- Nothing but declarations is listed, and no name without any. -/
  listed : ∀ key sites, index.types.get? key = some sites → sites ≠ [] ∧ ∀ site ∈ sites,
    site.name = key ∧ ∃ file decl, index.files.get? site.file = some file ∧ decl ∈ file.types ∧
      site = file.site site.file decl
  names : index.types.keys.Nodup
  /-- A qualified name tells the package and the type. -/
  apart : ∀ path file decl other second type, index.files.get? path = some file →
    decl ∈ file.types → index.files.get? other = some second → type ∈ second.types →
    file.qualify decl.name = second.qualify type.name →
    file.package = second.package ∧ decl.name = type.name
  /-- Every list ascends by file and line. -/
  ordered : ∀ key sites, index.types.get? key = some sites → sites.Pairwise Site.Before
  totals : index.totals =
    { files := index.files.length
      lines := (index.files.map fun entry => entry.2.lines.length).sum
      blocks := (index.files.map fun entry => entry.2.notes.length).sum
      types := (index.files.map fun entry => entry.2.types.length).sum }
  types_total : index.totals.types = (index.types.map fun entry => entry.2.length).sum

/-- Two indexes say the same; their files may have come in different orders. -/
structure Agrees (left right : Index) : Prop where
  root : left.root = right.root
  files : ∀ path, left.files.get? path = right.files.get? path
  types : left.types = right.types
  totals : left.totals = right.totals

theorem Agrees.symm {left right : Index} (agrees : left.Agrees right) : right.Agrees left :=
  ⟨agrees.root.symm, fun path => (agrees.files path).symm, agrees.types.symm, agrees.totals.symm⟩

theorem Agrees.trans {left middle right : Index} (agrees : left.Agrees middle)
    (more : middle.Agrees right) : left.Agrees right :=
  ⟨agrees.root.trans more.root, fun path => (agrees.files path).trans (more.files path),
    agrees.types.trans more.types, agrees.totals.trans more.totals⟩

end Index

/-- Files read from the texts of a snapshot, one to a path. -/
structure ReadFrom (marker : Text) (snapshot : Snapshot) (files : Table GoFile) : Prop where
  single : files.keys.Nodup
  read : ∀ path, (snapshot path).map (GoFile.ofSource path marker) = (files.get? path).map .ok

namespace ReadFrom

variable {marker : Text} {snapshot : Snapshot} {files : Table GoFile}

theorem nil (marker : Text) : ReadFrom marker Snapshot.empty [] := ⟨by simp [Table.keys], fun _ => rfl⟩

theorem put (known : ReadFrom marker snapshot files) {path text : Text} {file : GoFile}
    (read : GoFile.ofSource path marker text = .ok file) :
    ReadFrom marker (snapshot.put path text) (files.put path file) := by
  refine ⟨Table.nodup_keys_put files path file known.single, fun other => ?_⟩
  rw [Table.get?_put, Snapshot.put]
  by_cases same : other = path
  · subst same
    simp [read]
  · simpa [same] using known.read other

theorem erase (known : ReadFrom marker snapshot files) (path : Text) :
    ReadFrom marker (snapshot.erase path) (files.erase path) := by
  refine ⟨Table.nodup_keys_erase files path known.single, fun other => ?_⟩
  rw [Table.get?_erase, Snapshot.erase]
  by_cases same : other = path
  · simp [same]
  · simpa [same] using known.read other

theorem file_of_text (known : ReadFrom marker snapshot files) {path text : Text}
    (held : snapshot path = some text) :
    ∃ file, files.get? path = some file ∧ GoFile.ofSource path marker text = .ok file := by
  have same := known.read path
  rw [held, Option.map_some] at same
  obtain ⟨file, found, equal⟩ := Option.map_eq_some_iff.mp same.symm
  exact ⟨file, found, equal.symm⟩

theorem text_of_file (known : ReadFrom marker snapshot files) {path : Text} {file : GoFile}
    (found : files.get? path = some file) :
    ∃ text, snapshot path = some text ∧ GoFile.ofSource path marker text = .ok file := by
  have same := known.read path
  rw [found, Option.map_some] at same
  exact Option.map_eq_some_iff.mp same

theorem sound (known : ReadFrom marker snapshot files) {path : Text} {file : GoFile}
    (found : files.get? path = some file) : file.Sound path := by
  obtain ⟨text, -, read⟩ := known.text_of_file found
  exact GoFile.sound_of_ofSource read

theorem mem_keys (known : ReadFrom marker snapshot files) (path : Text) :
    path ∈ files.keys ↔ (snapshot path).isSome := by
  have absent := Table.get?_eq_none_iff files path
  have same := known.read path
  cases held : snapshot path <;> cases found : files.get? path <;> simp_all

end ReadFrom

/-! ## Tables of declarations -/

theorem GoFile.sites_ascending {path other : Text} {file : GoFile} (sound : file.Sound other) :
    (file.sites path).Pairwise Site.Before := by
  rw [GoFile.sites, List.pairwise_map]
  exact sound.types.1.imp fun earlier => .inr ⟨rfl, earlier⟩

theorem Site.Before.ne {a b : Site} (before : a.Before b) : a ≠ b := by
  rintro rfl
  rcases before with ⟨apart, -⟩ | ⟨-, less⟩
  · exact apart rfl
  · exact lt_irrefl _ less

namespace Index

/-- The declarations of all files, in order of paths and lines. -/
def sites (files : Table GoFile) : List Site :=
  files.sorted.flatMap fun entry => entry.2.sites entry.1

theorem types_ofFiles (root : Root) (files : Table GoFile) :
    (ofFiles root files).types = (sites files).foldl TypeTable.add [] := rfl

variable {marker : Text} {snapshot : Snapshot} {files : Table GoFile}

theorem mem_sites (known : ReadFrom marker snapshot files) (site : Site) :
    site ∈ sites files ↔ ∃ file decl, files.get? site.file = some file ∧ decl ∈ file.types ∧
      site = file.site site.file decl := by
  simp only [sites, List.mem_flatMap, GoFile.sites, List.mem_map]
  constructor
  · rintro ⟨⟨path, file⟩, inside, decl, declared, rfl⟩
    have member := (Table.sorted_perm files).mem_iff.mp inside
    exact ⟨file, decl, (Table.get?_eq_some_iff_mem files known.single path file).mpr member,
      declared, rfl⟩
  · rintro ⟨file, decl, found, declared, made⟩
    exact ⟨(site.file, file), (Table.sorted_perm files).mem_iff.mpr (Table.mem_of_get? found), decl,
      declared, made.symm⟩

/-- The declarations of all files stand in order: the files one after another, each with its
lines ascending. -/
theorem sites_ascending (known : ReadFrom marker snapshot files) :
    (sites files).Pairwise Site.Before := by
  rw [sites, List.pairwise_flatMap]
  refine ⟨fun entry inside => ?_, (Table.sorted_ascending known.single).imp fun before site first other second => ?_⟩
  · have member := (Table.sorted_perm files).mem_iff.mp inside
    exact GoFile.sites_ascending
      (known.sound ((Table.get?_eq_some_iff_mem files known.single _ _).mpr member))
  · obtain ⟨decl, -, rfl⟩ := List.mem_map.mp first
    obtain ⟨type, -, rfl⟩ := List.mem_map.mp second
    exact .inl before

theorem nodup_sites (known : ReadFrom marker snapshot files) : (sites files).Nodup :=
  (sites_ascending known).imp Site.Before.ne

theorem all_types_perm (root : Root) (files : Table GoFile) :
    (ofFiles root files).types.all.Perm (sites files) := by
  simpa [types_ofFiles, TypeTable.all] using TypeTable.all_foldl_add_perm (sites files) []

theorem get?_types (root : Root) (files : Table GoFile) (key : Text) :
    (ofFiles root files).types.get? key =
      if (sites files).filter (·.name = key) = [] then none
      else some ((sites files).filter (·.name = key)) :=
  TypeTable.get?_foldl_add (sites files) key

theorem total_eq_sum (count : GoFile → Nat) (files : Table GoFile) :
    total count files = (files.map fun entry => count entry.2).sum := by
  induction files with
  | nil => rfl
  | cons entry rest ih =>
    rw [total, List.foldr_cons, ← total, ih]
    simp

theorem length_sites (files : Table GoFile) :
    (sites files).length = (files.map fun entry => entry.2.types.length).sum := by
  have sorted := ((Table.sorted_perm files).map fun entry => entry.2.types.length).sum_eq
  rw [← sorted, sites, List.length_flatMap]
  simp [GoFile.sites]

/-- The index of files that were read from the texts of a snapshot reflects it. -/
theorem ofFiles_reflects (root : Root) (known : ReadFrom marker snapshot files) :
    (ofFiles root files).Reflects root marker snapshot where
  root := rfl
  single := known.single
  keys := known.mem_keys
  files path text held := by
    obtain ⟨file, found, read⟩ := known.file_of_text held
    exact ⟨file, found, read, (GoFile.sound_of_ofSource read).name⟩
  declared path file decl found inside := by
    have member : file.site path decl ∈ sites files :=
      (mem_sites known _).mpr ⟨file, decl, found, inside, rfl⟩
    have grouped : file.site path decl ∈ (sites files).filter (·.name = file.qualify decl.name) :=
      List.mem_filter.mpr ⟨member, by simp [GoFile.site]⟩
    refine ⟨?_, _, ?_, grouped⟩
    · rw [(all_types_perm root files).count_eq]
      exact List.count_eq_one_of_mem (nodup_sites known) member
    · rw [get?_types, if_neg (List.ne_nil_of_mem grouped)]
  listed key found held := by
    rw [get?_types] at held
    split at held
    · simp at held
    · rename_i some
      obtain rfl := Option.some.inj held
      refine ⟨some, fun site member => ?_⟩
      obtain ⟨inside, named⟩ := List.mem_filter.mp member
      exact ⟨by simpa using named, (mem_sites known site).mp inside⟩
  names := TypeTable.nodup_keys_foldl_add (sites files) [] (by simp [Table.keys])
  apart path file decl other second type found inside otherFound otherInside same :=
    GoFile.qualify_inj (known.sound found) (known.sound otherFound)
      ((known.sound found).types.2 decl inside).2 ((known.sound otherFound).types.2 type otherInside).2 same
  ordered key found held := by
    rw [get?_types] at held
    split at held
    · simp at held
    · obtain rfl := Option.some.inj held
      exact (sites_ascending known).sublist List.filter_sublist
  totals := by simp [ofFiles, total_eq_sum]
  types_total := by
    have counted := (all_types_perm root files).length_eq
    rw [TypeTable.all, List.length_flatMap, length_sites] at counted
    simp only [ofFiles, total_eq_sum]
    exact counted.symm

/-- Indexes of files that were read from the same texts agree. -/
theorem ofFiles_agrees (root : Root) {others : Table GoFile} (known : ReadFrom marker snapshot files)
    (known' : ReadFrom marker snapshot others) : (ofFiles root files).Agrees (ofFiles root others) := by
  have same : ∀ path, files.get? path = others.get? path := by
    intro path
    have equal := (known.read path).symm.trans (known'.read path)
    exact Option.map_injective (fun _ _ => Except.ok.inj) equal
  have mixed := Table.perm_of_get?_eq files others known.single known'.single same
  refine ⟨rfl, same, ?_, ?_⟩
  · rw [types_ofFiles, types_ofFiles, sites, sites, Table.sorted_eq_of_perm known.single mixed]
  · simp only [ofFiles, total_eq_sum, mixed.length_eq, (mixed.map _).sum_eq]

end Index

/-! ## Runs of an indexer -/

/-- A call that brings an indexer up to date. -/
inductive Update where
  | build
  | refresh (path : Text)
  | drop (path : Text)

namespace Indexer

/-- The indexer after an update, with the disk as it is. -/
def update (indexer : Indexer) (disk : Disk) : Update → Except IndexError Indexer
  | .build => indexer.build disk
  | .refresh path => indexer.refresh disk path
  | .drop path => indexer.drop path

/-- The texts that are known after an update that did not fail. -/
def textsAfter (indexer : Indexer) (disk : Disk) (snapshot : Snapshot) : Update → Snapshot
  | .build =>
    match indexer.discover disk with
    | .ok spots => .ofSpots indexer.root.place disk spots
    | .error _ => snapshot
  | .refresh path =>
    match indexer.textAt? disk path with
    | .ok (some text) => snapshot.put (indexer.pathOf path) text
    | _ => snapshot.erase (indexer.pathOf path)
  | .drop path => snapshot.erase path

theorem read_ok_iff (indexer : Indexer) (path text : Text) (file : GoFile) :
    indexer.read path text = .ok file ↔ GoFile.ofSource path indexer.marker text = .ok file := by
  unfold read
  cases GoFile.ofSource path indexer.marker text <;> simp [Except.mapError]

/-- What is known after some spots were read was known before or is the text of one of them. -/
theorem exists_spot_of_foldl {root : Path} {disk : Disk} {spots : List PatternSpot} {snapshot : Snapshot}
    {path : Text} (held : (spots.foldl (Snapshot.readSpot root disk) snapshot path).isSome = true) :
    (snapshot path).isSome = true ∨ ∃ spot ∈ spots, path = Path.fromRoot root spot.place := by
  induction spots generalizing snapshot with
  | nil => exact .inl held
  | cons spot rest ih =>
    rcases ih held with known | ⟨later, member, named⟩
    · by_cases here : path = Path.fromRoot root spot.place
      · exact .inr ⟨spot, by simp, here⟩
      · refine .inl ?_
        rw [Snapshot.readSpot] at known
        cases there : disk.text? spot.place <;> simpa [there, Snapshot.put, here] using known
    · exact .inr ⟨later, List.mem_cons_of_mem _ member, named⟩

/-- The files and the texts that they are made of grow together, spot by spot. -/
theorem readFrom_foldlM {indexer : Indexer} {disk : Disk} (spots : List PatternSpot)
    {snapshot : Snapshot} {known files : Table GoFile} (held : ReadFrom indexer.marker snapshot known)
    (gathered : spots.foldlM (indexer.readSpot disk) known = .ok files) :
    ReadFrom indexer.marker (spots.foldl (Snapshot.readSpot indexer.root.place disk) snapshot)
      files := by
  induction spots generalizing snapshot known with
  | nil =>
    obtain rfl := Except.ok.inj gathered
    exact held
  | cons spot rest ih =>
    rw [List.foldlM_cons] at gathered
    rw [List.foldl_cons, Snapshot.readSpot]
    cases there : disk.text? spot.place with
    | none =>
      simp only [readSpot, there] at gathered
      exact ih held gathered
    | some text =>
      simp only [readSpot, there] at gathered
      cases read : indexer.read (Path.fromRoot indexer.root.place spot.place) text with
      | error error =>
        rw [read] at gathered
        cases gathered
      | ok file =>
        rw [read] at gathered
        exact ih (held.put ((read_ok_iff indexer _ _ _).mp read)) gathered

/-- What a build does: it reads the files that it discovers into an index of its own. -/
theorem build_ok {indexer next : Indexer} {disk : Disk} (built : indexer.build disk = .ok next) :
    ∃ spots files, indexer.discover disk = .ok spots ∧
      spots.foldlM (indexer.readSpot disk) [] = .ok files ∧
      next = { indexer with index := some (.ofFiles indexer.root files) } := by
  unfold build at built
  cases discovered : indexer.discover disk with
  | error error =>
    rw [discovered] at built
    cases built
  | ok spots =>
    cases gathered : spots.foldlM (indexer.readSpot disk) [] with
    | error error =>
      rw [discovered] at built
      simp only [bind, Except.bind, gathered] at built
      cases built
    | ok files =>
      rw [discovered] at built
      simp only [bind, Except.bind, gathered, pure, Except.pure] at built
      exact ⟨spots, files, rfl, gathered, (Except.ok.inj built).symm⟩

/-- What a refresh does: it puts the text that the path leads to in place of the one before, or
drops the path where it leads to none. -/
theorem refresh_ok {indexer next : Indexer} {disk : Disk} {path : Text}
    (refreshed : indexer.refresh disk path = .ok next) :
    ∃ index, indexer.index = some index ∧
      ((indexer.textAt? disk path = .ok none ∧
          next = { indexer with index := some (index.erase (indexer.pathOf path)) }) ∨
        ∃ text file, indexer.textAt? disk path = .ok (some text) ∧
          indexer.read (indexer.pathOf path) text = .ok file ∧
          next = { indexer with index := some (index.put (indexer.pathOf path) file) }) := by
  unfold refresh at refreshed
  split at refreshed
  · cases refreshed
  · rename_i index known
    refine ⟨index, known, ?_⟩
    cases found : indexer.textAt? disk path with
    | error error =>
      rw [found] at refreshed
      cases refreshed
    | ok text? =>
      rw [found] at refreshed
      cases text? with
      | none => exact .inl ⟨rfl, (Except.ok.inj refreshed).symm⟩
      | some text =>
        simp only [bind, Except.bind] at refreshed
        cases read : indexer.read (indexer.pathOf path) text with
        | error error =>
          rw [read] at refreshed
          cases refreshed
        | ok file =>
          rw [read] at refreshed
          exact .inr ⟨text, file, rfl, read, (Except.ok.inj refreshed).symm⟩

theorem drop_ok {indexer next : Indexer} {path : Text} (dropped : indexer.drop path = .ok next) :
    ∃ index, indexer.index = some index ∧
      next = { indexer with index := some (index.erase path) } := by
  unfold drop at dropped
  split at dropped
  · cases dropped
  · rename_i index known
    exact ⟨index, known, (Except.ok.inj dropped).symm⟩

end Indexer

/-- The index of an indexer, where it has one, is made of files read from the texts of a
snapshot. -/
def Indexer.Follows (indexer : Indexer) (snapshot : Snapshot) : Prop :=
  ∀ index, indexer.index = some index → ∃ files,
    index = .ofFiles indexer.root files ∧ ReadFrom indexer.marker snapshot files

namespace Indexer.Follows

variable {indexer next : Indexer} {snapshot : Snapshot} {disk : Disk}

/-- An update keeps the index made of the texts read last. -/
theorem update (follows : indexer.Follows snapshot) {update : Update}
    (updated : indexer.update disk update = .ok next) :
    next.Follows (indexer.textsAfter disk snapshot update) := by
  cases update with
  | build =>
    obtain ⟨spots, files, discovered, gathered, rfl⟩ := build_ok updated
    intro index known
    obtain rfl := Option.some.inj known
    refine ⟨files, rfl, ?_⟩
    simp only [textsAfter, discovered]
    exact readFrom_foldlM spots (.nil _) gathered
  | refresh path =>
    obtain ⟨index, known, ⟨nothing, rfl⟩ | ⟨text, file, there, read, rfl⟩⟩ := refresh_ok updated
    all_goals
      obtain ⟨files, rfl, made⟩ := follows index known
      intro updatedIndex held
      obtain rfl := Option.some.inj held
    · refine ⟨files.erase (indexer.pathOf path), rfl, ?_⟩
      simp only [textsAfter, nothing]
      exact made.erase _
    · refine ⟨files.put (indexer.pathOf path) file, rfl, ?_⟩
      simp only [textsAfter, there]
      exact made.put ((read_ok_iff indexer _ _ _).mp read)
  | drop path =>
    obtain ⟨index, known, rfl⟩ := drop_ok updated
    obtain ⟨files, rfl, made⟩ := follows index known
    intro updatedIndex held
    obtain rfl := Option.some.inj held
    exact ⟨files.erase path, rfl, made.erase path⟩

/-- Indexers that follow the same texts have the same index. -/
theorem agrees {other : Indexer} (follows : indexer.Follows snapshot) (otherFollows : other.Follows snapshot)
    (root : indexer.root = other.root) (marker : indexer.marker = other.marker) {index second : Index}
    (known : indexer.index = some index) (otherKnown : other.index = some second) :
    index.Agrees second := by
  obtain ⟨files, rfl, read⟩ := follows index known
  obtain ⟨files', rfl, read'⟩ := otherFollows second otherKnown
  rw [root]
  exact Index.ofFiles_agrees other.root (marker ▸ read) read'

end Indexer.Follows

/-- A build makes an index of the texts that it discovers. -/
theorem Indexer.build_follows {indexer built : Indexer} {disk : Disk}
    (first : indexer.build disk = .ok built) :
    ∃ spots index, indexer.discover disk = .ok spots ∧
      built = { indexer with index := some index } ∧
      built.Follows (.ofSpots indexer.root.place disk spots) := by
  obtain ⟨spots, files, discovered, gathered, rfl⟩ := build_ok first
  refine ⟨spots, _, discovered, rfl, fun index known => ?_⟩
  obtain rfl := Option.some.inj known
  exact ⟨files, rfl, readFrom_foldlM spots (.nil _) gathered⟩

/-- An update changes nothing but the index. -/
theorem Indexer.update_eq {indexer next : Indexer} {disk : Disk} {update : Update}
    (updated : indexer.update disk update = .ok next) :
    next = { indexer with index := next.index } := by
  cases update with
  | build =>
    obtain ⟨_, _, _, _, rfl⟩ := build_ok updated
    rfl
  | refresh path =>
    obtain ⟨_, _, ⟨_, rfl⟩ | ⟨_, _, _, _, rfl⟩⟩ := refresh_ok updated <;> rfl
  | drop path =>
    obtain ⟨_, _, rfl⟩ := drop_ok updated
    rfl

/-- An indexer, and beside it the texts that it read last. -/
structure Tracked where
  indexer : Indexer
  snapshot : Snapshot

namespace Tracked

def start (root : Root) (patterns excluded : List Text) (sizeLimit : Number.Given) (marker : Text) :
    Tracked :=
  ⟨.start root patterns excluded sizeLimit marker, .empty⟩

/-- A call with the disk as it is. A call that fails changes nothing. -/
def step (state : Tracked) (call : Disk × Update) : Tracked :=
  match state.indexer.update call.1 call.2 with
  | .ok next => ⟨next, state.indexer.textsAfter call.1 state.snapshot call.2⟩
  | .error _ => state

/-- Calls one after another, each with the disk as it is by then. -/
def run (state : Tracked) (calls : List (Disk × Update)) : Tracked := calls.foldl step state

/-- What holds at the start and after every call: the index follows the texts, and the root and
the marker stay. -/
structure Steady (root : Root) (marker : Text) (state : Tracked) : Prop where
  root : state.indexer.root = root
  marker : state.indexer.marker = marker
  follows : state.indexer.Follows state.snapshot

theorem Steady.step {root : Root} {marker : Text} {state : Tracked} (steady : state.Steady root marker)
    (call : Disk × Update) : (state.step call).Steady root marker := by
  unfold Tracked.step
  split
  · rename_i next updated
    have settings := Indexer.update_eq updated
    exact ⟨by rw [settings]; exact steady.root, by rw [settings]; exact steady.marker,
      steady.follows.update updated⟩
  · exact steady

theorem Steady.run {root : Root} {marker : Text} {state : Tracked} (steady : state.Steady root marker)
    (calls : List (Disk × Update)) : (state.run calls).Steady root marker := by
  induction calls generalizing state with
  | nil => exact steady
  | cons call rest ih => exact ih (steady.step call)

theorem steady_start (root : Root) (patterns excluded : List Text) (sizeLimit : Number.Given)
    (marker : Text) : (start root patterns excluded sizeLimit marker).Steady root marker :=
  ⟨rfl, rfl, fun _ known => by cases known⟩

theorem Steady.index {root : Root} {marker : Text} {state : Tracked} (steady : state.Steady root marker)
    {index : Index} (known : state.indexer.index = some index) :
    ∃ files, index = .ofFiles root files ∧ ReadFrom marker state.snapshot files := by
  obtain ⟨files, made, read⟩ := steady.follows index known
  exact ⟨files, steady.root ▸ made, steady.marker ▸ read⟩

theorem Steady.reflects {root : Root} {marker : Text} {state : Tracked} (steady : state.Steady root marker)
    {index : Index} (known : state.indexer.index = some index) :
    index.Reflects root marker state.snapshot := by
  obtain ⟨files, rfl, read⟩ := steady.index known
  exact Index.ofFiles_reflects root read

/-- Once there is an index, it reflects the texts that were read last, whatever was called and
however the disk changed in between; and any other indexer of the same root and marker that last
read the same texts has the same index. -/
theorem run_reflects (root : Root) (patterns excluded : List Text) (sizeLimit : Number.Given)
    (marker : Text) (calls : List (Disk × Update)) (index : Index)
    (reached : ((start root patterns excluded sizeLimit marker).run calls).indexer.index = some index) :
    index.Reflects root marker ((start root patterns excluded sizeLimit marker).run calls).snapshot ∧
      ∀ (others without : List Text) (limit : Number.Given) (steps : List (Disk × Update))
        (second : Index),
        ((start root others without limit marker).run steps).indexer.index = some second →
        ((start root others without limit marker).run steps).snapshot =
          ((start root patterns excluded sizeLimit marker).run calls).snapshot →
        second.Agrees index := by
  have steady := (steady_start root patterns excluded sizeLimit marker).run calls
  refine ⟨steady.reflects reached, fun others without limit steps second there same => ?_⟩
  have otherSteady := (steady_start root others without limit marker).run steps
  exact otherSteady.follows.agrees (same ▸ steady.follows) (otherSteady.root.trans steady.root.symm)
    (otherSteady.marker.trans steady.marker.symm) there reached

/-- A project of one Go file. -/
def smallDisk : Disk where
  directories := [["p".toList]]
  files := [(["p".toList, "a.go".toList],
    "package a\ntype T int".toList.map fun c => UInt8.ofNat c.toNat)]

/-- An indexer of that project, not called yet. -/
def smallStart : Tracked := start ⟨["p".toList], false⟩ [] [] (.ok (.int 100)) defaultMarker

/-- A build of the small project, and a build of nothing that a refresh makes up for. -/
theorem run_reflects_small : ∃ built refreshed,
    (smallStart.run [(smallDisk, .build)]).indexer.index = some built ∧
    (smallStart.run [(.empty, .build), (smallDisk, .refresh "a.go".toList)]).indexer.index =
      some refreshed ∧
    built.Reflects ⟨["p".toList], false⟩ defaultMarker
      (smallStart.run [(smallDisk, .build)]).snapshot ∧ refreshed.Agrees built := by
  obtain ⟨built, first⟩ := Option.isSome_iff_exists.mp
    (rfl : (smallStart.run [(smallDisk, .build)]).indexer.index.isSome = true)
  obtain ⟨refreshed, second⟩ := Option.isSome_iff_exists.mp
    (rfl : (smallStart.run
      [(.empty, .build), (smallDisk, .refresh "a.go".toList)]).indexer.index.isSome = true)
  have reflects := run_reflects _ _ _ _ _ _ built first
  exact ⟨built, refreshed, first, second, reflects.1,
    reflects.2 _ _ _ _ refreshed second rfl⟩

end Tracked

end ApiNotes
