import ApiNotes.Proofs.Discovery
import ApiNotes.Proofs.Snapshots

/-!
# Bringing an index up to date file by file

A project changes while its files are read again one by one. If every file that changed is read
again after its last change, and every file that is read again is in the end either gone or one
that would be discovered, then the index is the one that a new build would make
(`Indexer.follow_agrees`). What is known of a place in the end are the bytes there when it was
last read, and these are the last bytes there.
-/

namespace ApiNotes

/-- Every text on the disk can be read. -/
def Disk.IsReadable (disk : Disk) : Prop := ∀ place text, disk.text? place = some text → text.IsReadable

theorem Disk.isReadable_of_forall {disk : Disk}
    (readable : ∀ entry ∈ disk.files, (Encoding.decode entry.2).IsReadable) : disk.IsReadable := by
  intro place text found
  obtain ⟨bytes, there, rfl⟩ := Option.map_eq_some_iff.mp found
  obtain ⟨before, after, equal, -⟩ := List.lookup_eq_some_iff.mp there
  exact readable (place, bytes) (by simp [equal])

theorem Disk.text?_congr {disk other : Disk} {place : Path} (same : disk.bytes? place = other.bytes? place) :
    disk.text? place = other.text? place := by
  rw [text?, text?, same]

/-! ## What is known of a place -/

namespace Snapshot

/-- All texts go by the path texts of places. -/
def Placed (root : Path) (snapshot : Snapshot) : Prop :=
  ∀ path text, snapshot path = some text → ∃ place, Path.IsPlace place ∧ path = Path.fromRoot root place

variable {root : Path} {snapshot other : Snapshot}

theorem ext_of_placed (placed : snapshot.Placed root) (otherPlaced : other.Placed root)
    (same : ∀ place, Path.IsPlace place →
      snapshot (Path.fromRoot root place) = other (Path.fromRoot root place)) : snapshot = other := by
  funext path
  cases left : snapshot path with
  | some text =>
    obtain ⟨place, isPlace, rfl⟩ := placed path text left
    rw [← left, same place isPlace]
  | none =>
    cases right : other path with
    | none => rfl
    | some text =>
      obtain ⟨place, isPlace, rfl⟩ := otherPlaced path text right
      rw [← right, ← left, same place isPlace]

theorem placed_empty : empty.Placed root := fun _ _ held => by cases held

theorem Placed.put (placed : snapshot.Placed root) {place : Path} (isPlace : Path.IsPlace place)
    (text : Text) : (snapshot.put (Path.fromRoot root place) text).Placed root := by
  intro path found held
  unfold Snapshot.put at held
  split at held
  · exact ⟨place, isPlace, by assumption⟩
  · exact placed path found held

theorem Placed.erase (placed : snapshot.Placed root) (path : Text) : (snapshot.erase path).Placed root := by
  intro other found held
  unfold Snapshot.erase at held
  split at held
  · cases held
  · exact placed other found held

theorem Placed.foldl_readSpot (placed : snapshot.Placed root) {disk : Disk} {spots : List PatternSpot}
    (arePlaces : ∀ spot ∈ spots, Path.IsPlace spot.place) :
    (spots.foldl (readSpot root disk) snapshot).Placed root := by
  induction spots generalizing snapshot with
  | nil => exact placed
  | cons spot rest ih =>
    refine ih ?_ fun later member => arePlaces later (List.mem_cons_of_mem _ member)
    unfold readSpot
    split
    · exact placed.put (arePlaces spot (by simp)) _
    · exact placed

theorem readSpot_apply {disk : Disk} {spot : PatternSpot} {place : Path} (isPlace : Path.IsPlace place)
    (isSpot : Path.IsPlace spot.place) :
    readSpot root disk snapshot spot (Path.fromRoot root place) =
      if spot.place = place then (disk.text? place).or (snapshot (Path.fromRoot root place))
      else snapshot (Path.fromRoot root place) := by
  unfold readSpot
  by_cases same : spot.place = place
  · subst same
    cases disk.text? spot.place <;> simp [Snapshot.put]
  · have apart : Path.fromRoot root place ≠ Path.fromRoot root spot.place :=
      fun equal => same (Path.fromRoot_inj isPlace isSpot equal).symm
    cases disk.text? spot.place <;> simp [same, apart, Snapshot.put]

/-- After some spots were read, the text of a place among them is known. -/
theorem foldl_readSpot_apply (root : Path) (disk : Disk) (snapshot : Snapshot)
    {spots : List PatternSpot} (arePlaces : ∀ spot ∈ spots, Path.IsPlace spot.place) {place : Path}
    (isPlace : Path.IsPlace place) :
    spots.foldl (readSpot root disk) snapshot (Path.fromRoot root place) =
      if ∃ spot ∈ spots, spot.place = place then
        (disk.text? place).or (snapshot (Path.fromRoot root place))
      else snapshot (Path.fromRoot root place) := by
  induction spots generalizing snapshot with
  | nil => simp
  | cons spot rest ih =>
    rw [List.foldl_cons, ih _ fun later member => arePlaces later (List.mem_cons_of_mem _ member),
      readSpot_apply isPlace (arePlaces spot (by simp))]
    by_cases here : spot.place = place
    · cases disk.text? place <;> simp [here]
    · simp [here]

end Snapshot

namespace Indexer

variable {indexer : Indexer} {disk : Disk}

/-- What is discovered on a tree are files at places. -/
theorem isPlace_of_discover (tree : disk.IsTree) (descends : indexer.Descends) {spots : List PatternSpot}
    (ok : indexer.discover disk = .ok spots) : ∀ spot ∈ spots, Path.IsPlace spot.place := by
  intro spot member
  obtain ⟨-, small⟩ := (lists_iff tree descends ok spot.place).mp ⟨spot, member, rfl⟩
  exact (tree.names _ (Disk.holds_of_isFile small.isFile)).1

theorem lists_of_discover {spots : List PatternSpot} (ok : indexer.discover disk = .ok spots)
    (place : Path) : indexer.Lists disk place ↔ ∃ spot ∈ spots, spot.place = place := by
  constructor
  · rintro ⟨others, again, found⟩
    obtain rfl : others = spots := Except.ok.inj (again.symm.trans ok)
    exact found
  · exact fun found => ⟨spots, ok, found⟩

/-- A build knows the texts of the files that it discovers. -/
theorem ofSpots_apply (tree : disk.IsTree) (descends : indexer.Descends) {spots : List PatternSpot}
    (ok : indexer.discover disk = .ok spots) {place : Path} (isPlace : Path.IsPlace place) :
    (indexer.Lists disk place → Snapshot.ofSpots indexer.root.place disk spots
        (Path.fromRoot indexer.root.place place) = disk.text? place) ∧
      (¬indexer.Lists disk place → Snapshot.ofSpots indexer.root.place disk spots
        (Path.fromRoot indexer.root.place place) = none) := by
  have read := Snapshot.foldl_readSpot_apply indexer.root.place disk .empty
    (isPlace_of_discover tree descends ok) isPlace
  rw [← Snapshot.ofSpots] at read
  rw [lists_of_discover ok]
  refine ⟨fun found => ?_, fun nothing => ?_⟩
  · rw [read, if_pos found]
    cases disk.text? place <;> simp [Snapshot.empty]
  · rw [read, if_neg nothing]
    rfl

theorem placed_ofSpots (tree : disk.IsTree) (descends : indexer.Descends) {spots : List PatternSpot}
    (ok : indexer.discover disk = .ok spots) :
    (Snapshot.ofSpots indexer.root.place disk spots).Placed indexer.root.place :=
  Snapshot.placed_empty.foldl_readSpot (isPlace_of_discover tree descends ok)

/-! ## Reading one file again -/

/-- The text that is found at a path text without null characters is the one at the place that it
means. -/
theorem textAt?_ok (indexer : Indexer) (disk : Disk) {path : Text} (no_null : '\x00' ∉ path) : ∃ found,
    indexer.textAt? disk path = .ok found ∧
      ∀ text, found = some text → disk.text? (Path.resolve indexer.root.place path) = some text := by
  unfold textAt?
  rw [if_neg (by simpa using no_null)]
  refine ⟨_, rfl, fun text found => ?_⟩
  split at found
  · exact found
  · cases read : disk.read indexer.root.place path with
    | error fault => simp [read, Except.toOption] at found
    | ok other =>
      obtain rfl : other = text := by simpa [read, Except.toOption] using found
      exact Disk.text?_of_read read

/-- On a tree a path text in normal form finds the text at the place that it means, if only the
root is a directory or there is no file. -/
theorem textAt?_normal (tree : disk.IsTree) {path : Text} (normal : Path.Normal path)
    (no_null : '\x00' ∉ path)
    (opened : disk.isFile (Path.resolve indexer.root.place path) = true →
      disk.isDirectory indexer.root.place = true) :
    indexer.textAt? disk path = .ok (disk.text? (Path.resolve indexer.root.place path)) := by
  obtain ⟨found, ok, sound⟩ := textAt?_ok indexer disk no_null
  rw [ok]
  cases there : disk.text? (Path.resolve indexer.root.place path) with
  | none =>
    cases found with
    | none => rfl
    | some text => simp [sound text rfl] at there
  | some text =>
    unfold textAt? at ok
    rw [if_neg (by simpa using no_null)] at ok
    by_cases absolute : Path.isAbsolute path = true
    · rw [if_pos absolute, there] at ok
      exact ok.symm
    · have read := Disk.read_normal tree normal (by simpa using absolute)
        (opened (Disk.isFile_of_text? there)) there
      rw [if_neg absolute, read] at ok
      exact ok.symm

/-- On a disk that can be read, so can one file of it. -/
theorem exists_refresh (readable : disk.IsReadable) (known : indexer.index.isSome = true) {path : Text}
    (no_null : '\x00' ∉ path) :
    ∃ next, indexer.refresh disk path = .ok next ∧ next.index.isSome = true := by
  obtain ⟨index, held⟩ := Option.isSome_iff_exists.mp known
  obtain ⟨found, ok, sound⟩ := textAt?_ok indexer disk no_null
  unfold refresh
  simp only [held, ok, bind, Except.bind]
  cases found with
  | none => exact ⟨_, rfl, rfl⟩
  | some text =>
    obtain ⟨file, read⟩ := GoFile.exists_ofSource_of_isReadable (indexer.pathOf path) indexer.marker
      (readable _ text (sound text rfl))
    simp only [(read_ok_iff indexer _ _ _).mpr read]
    exact ⟨_, rfl, rfl⟩

/-- A file that is read again leaves what is known of other places. -/
theorem textsAfter_refresh_of_ne {snapshot : Snapshot} {path : Text} {place : Path}
    (rooted : Path.IsPlace indexer.root.place) (isPlace : Path.IsPlace place)
    (apart : Path.resolve indexer.root.place path ≠ place) :
    indexer.textsAfter disk snapshot (.refresh path) (Path.fromRoot indexer.root.place place) =
      snapshot (Path.fromRoot indexer.root.place place) := by
  have other : Path.fromRoot indexer.root.place place ≠ indexer.pathOf path :=
    fun equal => apart (Path.fromRoot_inj isPlace (Path.isPlace_resolve rooted path) equal).symm
  simp only [textsAfter]
  rcases indexer.textAt? disk path with error | (none | text) <;>
    simp [Snapshot.put, Snapshot.erase, other]

/-- A file that is read again is known with its last text. -/
theorem textsAfter_refresh {snapshot : Snapshot} (tree : disk.IsTree) {path : Text}
    (normal : Path.Normal path) (no_null : '\x00' ∉ path)
    (opened : disk.isFile (Path.resolve indexer.root.place path) = true →
      disk.isDirectory indexer.root.place = true) :
    indexer.textsAfter disk snapshot (.refresh path) (indexer.pathOf path) =
      disk.text? (Path.resolve indexer.root.place path) := by
  simp only [textsAfter]
  rw [textAt?_normal tree normal no_null opened]
  cases disk.text? (Path.resolve indexer.root.place path) <;>
    simp [Snapshot.put, Snapshot.erase]

theorem placed_textsAfter_refresh (disk : Disk) {snapshot : Snapshot} (placed : snapshot.Placed indexer.root.place)
    (rooted : Path.IsPlace indexer.root.place) (path : Text) :
    (indexer.textsAfter disk snapshot (.refresh path)).Placed indexer.root.place := by
  simp only [textsAfter]
  split
  · exact placed.put (Path.isPlace_resolve rooted path) _
  · exact placed.erase _

/-- A build of a disk that can be read succeeds once the files are discovered. -/
theorem exists_build (readable : disk.IsReadable) {spots : List PatternSpot}
    (ok : indexer.discover disk = .ok spots) :
    ∃ next, indexer.build disk = .ok next ∧ next.index.isSome = true := by
  have gathered : ∀ known, ∃ files, spots.foldlM (indexer.readSpot disk) known = .ok files := by
    clear ok
    induction spots with
    | nil => exact fun known => ⟨known, rfl⟩
    | cons spot rest ih =>
      intro known
      rw [List.foldlM_cons, readSpot]
      cases there : disk.text? spot.place with
      | none => exact ih known
      | some text =>
        obtain ⟨file, read⟩ := GoFile.exists_ofSource_of_isReadable
          (Path.fromRoot indexer.root.place spot.place) indexer.marker (readable _ text there)
        simp only [(read_ok_iff indexer _ _ _).mpr read]
        exact ih _
  obtain ⟨files, read⟩ := gathered []
  unfold build
  simp only [ok, bind, Except.bind, read]
  exact ⟨_, rfl, rfl⟩

end Indexer

/-! ## Changes of a project -/

/-- Something that happens to a project between two builds. -/
inductive Change where
  /-- What is at a place changes; the disk is this one from then on. -/
  | edit (place : Path) (disk : Disk)
  /-- A file is read again. -/
  | refresh (path : Text)

namespace Change

/-- The disk after some changes. -/
def diskAfter (disk : Disk) : List Change → Disk
  | [] => disk
  | .edit _ next :: rest => diskAfter next rest
  | .refresh _ :: rest => diskAfter disk rest

/-- An edit leaves a tree that can be read, and all files at other places. A path text that is
read again is in normal form and has no null character. -/
def Valid (disk : Disk) : List Change → Prop
  | [] => True
  | .edit place next :: rest =>
    next.IsTree ∧ next.IsReadable ∧ (∀ other ≠ place, next.bytes? other = disk.bytes? other) ∧
      Valid next rest
  | .refresh path :: rest => Path.Normal path ∧ '\x00' ∉ path ∧ Valid disk rest

/-- Whether a place is read again. -/
def Refreshes (root place : Path) (changes : List Change) : Prop :=
  ∃ path, .refresh path ∈ changes ∧ Path.resolve root path = place

/-- Every place that is edited is read again later. -/
def Settled (root : Path) : List Change → Prop
  | [] => True
  | .edit place _ :: rest => Refreshes root place rest ∧ Settled root rest
  | .refresh _ :: rest => Settled root rest

def Edits (place : Path) (changes : List Change) : Prop := ∃ disk, .edit place disk ∈ changes

/-- What happens to a project that is a tree and can be read: every edit is made up for. -/
structure History (root : Path) (disk : Disk) (changes : List Change) : Prop where
  tree : disk.IsTree
  readable : disk.IsReadable
  valid : Valid disk changes
  settled : Settled root changes

variable {root place : Path} {disk : Disk} {change : Change} {changes : List Change}

theorem Settled.tail (settled : Settled root (change :: changes)) : Settled root changes := by
  cases change with
  | edit place next => exact settled.2
  | refresh path => exact settled

theorem Refreshes.cons (refreshes : Refreshes root place changes) :
    Refreshes root place (change :: changes) := by
  obtain ⟨path, member, meant⟩ := refreshes
  exact ⟨path, List.mem_cons_of_mem _ member, meant⟩

theorem refreshes_edit_iff {other : Path} {next : Disk} :
    Refreshes root place (.edit other next :: changes) ↔ Refreshes root place changes := by
  simp [Refreshes]

theorem refreshes_refresh_iff {path : Text} : Refreshes root place (.refresh path :: changes) ↔
    Path.resolve root path = place ∨ Refreshes root place changes := by
  simp [Refreshes, or_and_right, exists_or]

/-- Where nothing is read again nothing is edited, so the bytes stay. -/
theorem bytes?_diskAfter (valid : Valid disk changes) (settled : Settled root changes)
    (untouched : ¬Refreshes root place changes) :
    (diskAfter disk changes).bytes? place = disk.bytes? place := by
  induction changes generalizing disk with
  | nil => rfl
  | cons change rest ih =>
    have later : ¬Refreshes root place rest := fun refreshes => untouched refreshes.cons
    cases change with
    | edit other next =>
      obtain ⟨-, -, kept, valid⟩ := valid
      have apart : place ≠ other := by
        rintro rfl
        exact later settled.1
      rw [diskAfter, ih valid settled.tail later, kept place apart]
    | refresh path => exact ih valid.2.2 settled.tail later

theorem isTree_diskAfter (tree : disk.IsTree) (valid : Valid disk changes) :
    (diskAfter disk changes).IsTree := by
  induction changes generalizing disk with
  | nil => exact tree
  | cons change rest ih =>
    cases change with
    | edit place next => exact ih valid.1 valid.2.2.2
    | refresh path => exact ih tree valid.2.2

theorem isReadable_diskAfter (readable : disk.IsReadable) (valid : Valid disk changes) :
    (diskAfter disk changes).IsReadable := by
  induction changes generalizing disk with
  | nil => exact readable
  | cons change rest ih =>
    cases change with
    | edit place next => exact ih valid.2.1 valid.2.2.2
    | refresh path => exact ih readable valid.2.2

end Change

namespace Indexer

/-- The indexer after some changes of the disk, with the files read again that are to be. -/
def follow (indexer : Indexer) (disk : Disk) : List Change → Except IndexError Indexer
  | [] => .ok indexer
  | .edit _ next :: rest => indexer.follow next rest
  | .refresh path :: rest => do (← indexer.refresh disk path).follow disk rest

/-- What is known after some changes: of a place that was read again, if it is below the root or
no file in the end, its last text; of any other place, what was known before. -/
structure Knows (root : Path) (disk : Disk) (changes : List Change) (before after : Snapshot) :
    Prop where
  placed : after.Placed root
  kept : ∀ place, Path.IsPlace place → ¬Change.Refreshes root place changes →
    after (Path.fromRoot root place) = before (Path.fromRoot root place)
  read : ∀ place, Path.IsPlace place → Change.Refreshes root place changes →
    ((Change.diskAfter disk changes).isFile place = true →
      ∃ names, names ≠ [] ∧ place = root ++ names) →
    after (Path.fromRoot root place) = (Change.diskAfter disk changes).text? place

variable {indexer : Indexer} {disk : Disk}

/-- The first of some changes is that a file is read again. -/
theorem Knows.refresh (rooted : Path.IsPlace indexer.root.place) (tree : disk.IsTree) {path : Text}
    (normal : Path.Normal path) (no_null : '\x00' ∉ path) {rest : List Change}
    (valid : Change.Valid disk rest) (settled : Change.Settled indexer.root.place rest)
    {before after : Snapshot} (knows : Knows indexer.root.place disk rest
      (indexer.textsAfter disk before (.refresh path)) after) :
    Knows indexer.root.place disk (.refresh path :: rest) before after where
  placed := knows.placed
  kept place isPlace untouched := by
    rw [Change.refreshes_refresh_iff, not_or] at untouched
    rw [knows.kept place isPlace untouched.2, textsAfter_refresh_of_ne rooted isPlace untouched.1]
  read place isPlace refreshes below := by
    by_cases later : Change.Refreshes indexer.root.place place rest
    · exact knows.read place isPlace later below
    · obtain meant | again := Change.refreshes_refresh_iff.mp refreshes
      · subst meant
        -- This is the last time that the place is read, and its bytes stay from here on.
        have stays := Change.bytes?_diskAfter valid settled later
        rw [knows.kept _ isPlace later, Change.diskAfter, Disk.text?_congr stays]
        refine textsAfter_refresh tree normal no_null fun file => ?_
        have last : (Change.diskAfter disk rest).isFile (Path.resolve indexer.root.place path) = true := by
          rw [Disk.isFile, stays]
          exact file
        obtain ⟨names, some, under⟩ := below last
        exact tree.isDirectory_above some (under ▸ Disk.holds_of_isFile file)
      · exact absurd again later

/-- Changes are followed without failing, and what is known in the end is what they say. -/
theorem exists_follow (indexer : Indexer) (rooted : Path.IsPlace indexer.root.place) (tree : disk.IsTree)
    (readable : disk.IsReadable) (known : indexer.index.isSome = true) {before : Snapshot}
    (follows : indexer.Follows before) (placed : before.Placed indexer.root.place)
    {changes : List Change} (valid : Change.Valid disk changes)
    (settled : Change.Settled indexer.root.place changes) :
    ∃ next after, indexer.follow disk changes = .ok next ∧ next.index.isSome = true ∧
      next.root = indexer.root ∧ next.marker = indexer.marker ∧ next.Follows after ∧
      Knows indexer.root.place disk changes before after := by
  induction changes generalizing indexer disk before with
  | nil =>
    refine ⟨indexer, before, rfl, known, rfl, rfl, follows, placed, fun _ _ _ => rfl, ?_⟩
    rintro place - ⟨path, member, -⟩
    simp at member
  | cons change rest ih =>
    cases change with
    | edit place next =>
      obtain ⟨treeNext, readableNext, -, validNext⟩ := valid
      obtain ⟨last, after, ok, isSome, root, marker, holds, knows⟩ :=
        ih _ rooted treeNext readableNext known follows placed validNext settled.tail
      exact ⟨last, after, ok, isSome, root, marker, holds, knows.placed,
        fun other isPlace untouched =>
          knows.kept other isPlace (Change.refreshes_edit_iff.not.mp untouched),
        fun other isPlace refreshes => knows.read other isPlace (Change.refreshes_edit_iff.mp refreshes)⟩
    | refresh path =>
      obtain ⟨normal, no_null, validNext⟩ := valid
      obtain ⟨next, refreshed, isSome⟩ := exists_refresh readable known no_null
      have updated : indexer.update disk (.refresh path) = .ok next := refreshed
      have settings := update_eq updated
      have root : next.root = indexer.root := by rw [settings]
      have now := follows.update updated
      have placedNow := placed_textsAfter_refresh disk placed rooted path
      obtain ⟨last, after, ok, someLast, rootLast, markerLast, holds, knows⟩ :=
        ih _ (root ▸ rooted) tree readable isSome now (root ▸ placedNow) validNext (root ▸ settled.tail)
      refine ⟨last, after, ?_, someLast, rootLast.trans root, ?_, holds, ?_⟩
      · simp only [follow, refreshed, bind, Except.bind]
        exact ok
      · rw [markerLast, settings]
      · rw [root] at knows
        exact knows.refresh rooted tree normal no_null validNext settled.tail

/-- There is no file at a place, or one that is discovered. -/
def GoneOrListed (indexer : Indexer) (disk : Disk) (place : Path) : Prop :=
  disk.isFile place = false ∨ indexer.Lists disk place

/-- A history after which an index is up to date: what is read again is in the end gone or
discovered. -/
structure History (indexer : Indexer) (disk : Disk) (changes : List Change) : Prop
    extends Change.History indexer.root.place disk changes where
  admitted : ∀ place, Change.Refreshes indexer.root.place place changes →
    indexer.GoneOrListed (Change.diskAfter disk changes) place

namespace History

variable {changes : List Change}

/-- Files can be discovered in the end if they could be at the start. -/
theorem exists_discover (history : indexer.History disk changes) (descends : indexer.Descends)
    {spots : List PatternSpot} (first : indexer.discover disk = .ok spots) :
    ∃ last, indexer.discover (Change.diskAfter disk changes) = .ok last := by
  obtain ⟨patterns, limited⟩ := (exists_discover_iff history.tree descends).mp ⟨spots, first⟩
  by_cases found : ∃ place, indexer.Lists (Change.diskAfter disk changes) place
  · obtain ⟨place, last, discovered, -⟩ := found
    exact ⟨last, discovered⟩
  · refine (exists_discover_iff (Change.isTree_diskAfter history.tree history.valid) descends).mpr
      ⟨patterns, limited.imp_right fun nothing place file admits => ?_⟩
    by_cases refreshes : Change.Refreshes indexer.root.place place changes
    · rcases history.admitted place refreshes with gone | listed
      · simp [gone] at file
      · exact found ⟨place, listed⟩
    · have stays := Change.bytes?_diskAfter history.valid history.settled refreshes
      rw [Disk.isFile, stays] at file
      exact nothing place file admits

/-- A place that was not read again is discovered in the end as it was at the start. -/
theorem lists_iff (history : indexer.History disk changes) (descends : indexer.Descends)
    {spots last : List PatternSpot} (first : indexer.discover disk = .ok spots)
    (second : indexer.discover (Change.diskAfter disk changes) = .ok last) {place : Path}
    (untouched : ¬Change.Refreshes indexer.root.place place changes) :
    indexer.Lists (Change.diskAfter disk changes) place ↔ indexer.Lists disk place := by
  rw [lists_of_discover first, lists_of_discover second, Indexer.lists_iff history.tree descends first,
    Indexer.lists_iff (Change.isTree_diskAfter history.tree history.valid) descends second, Small, Small,
    Change.bytes?_diskAfter history.valid history.settled untouched]

/-- What is known in the end is what a new build would read. -/
theorem known_eq (history : indexer.History disk changes) (descends : indexer.Descends)
    {spots last : List PatternSpot} (first : indexer.discover disk = .ok spots)
    (second : indexer.discover (Change.diskAfter disk changes) = .ok last) {after : Snapshot}
    (knows : Knows indexer.root.place disk changes (.ofSpots indexer.root.place disk spots) after) :
    after = .ofSpots indexer.root.place (Change.diskAfter disk changes) last := by
  have lastTree := Change.isTree_diskAfter history.tree history.valid
  refine Snapshot.ext_of_placed knows.placed (placed_ofSpots lastTree descends second)
    fun place isPlace => ?_
  obtain ⟨listed, unlisted⟩ := ofSpots_apply lastTree descends second isPlace
  obtain ⟨listedFirst, unlistedFirst⟩ := ofSpots_apply history.tree descends first isPlace
  by_cases refreshes : Change.Refreshes indexer.root.place place changes
  · rcases history.admitted place refreshes with gone | inside
    · have nothing := (Disk.text?_eq_none_iff _ place).mpr gone
      have left : ¬indexer.Lists (Change.diskAfter disk changes) place := by
        rw [lists_of_discover second, Indexer.lists_iff lastTree descends second]
        rintro ⟨-, small⟩
        exact absurd (gone.symm.trans small.isFile) (by simp)
      rw [knows.read place isPlace refreshes fun file => by simp [gone] at file, unlisted left, nothing]
    · have admits := ((Indexer.lists_iff lastTree descends second place).mp
        ((lists_of_discover second place).mp inside)).1
      rw [knows.read place isPlace refreshes fun _ => admits.below, listed inside]
  · have stays := Disk.text?_congr (Change.bytes?_diskAfter history.valid history.settled refreshes)
    have same := history.lists_iff descends first second refreshes
    rw [knows.kept place isPlace refreshes]
    by_cases inside : indexer.Lists disk place
    · rw [listedFirst inside, listed (same.mpr inside), stays]
    · rw [unlistedFirst inside, unlisted (same.not.mpr inside)]

theorem exists_agrees (history : indexer.History disk changes) (rooted : Path.IsPlace indexer.root.place)
    (descends : indexer.Descends) {built : Indexer} (first : indexer.build disk = .ok built) :
    ∃ followed rebuilt index fresh, built.follow disk changes = .ok followed ∧
      indexer.build (Change.diskAfter disk changes) = .ok rebuilt ∧
      followed.index = some index ∧ rebuilt.index = some fresh ∧ index.Agrees fresh := by
  obtain ⟨spots, start, discovered, rfl, follows⟩ := build_follows first
  obtain ⟨followed, after, ok, known, root, marker, holds, knows⟩ := exists_follow
    { indexer with index := some start } rooted history.tree history.readable rfl follows
    (placed_ofSpots history.tree descends discovered) history.valid history.settled
  obtain ⟨last, discoveredLast⟩ := history.exists_discover descends discovered
  obtain ⟨rebuilt, again, -⟩ :=
    exists_build (Change.isReadable_diskAfter history.readable history.valid) discoveredLast
  obtain ⟨others, fresh, discoveredAgain, rfl, rebuiltFollows⟩ := build_follows again
  obtain rfl : last = others := Except.ok.inj (discoveredLast.symm.trans discoveredAgain)
  obtain ⟨index, held⟩ := Option.isSome_iff_exists.mp known
  obtain rfl := history.known_eq descends discovered discoveredLast knows
  exact ⟨followed, _, index, fresh, ok, again, held, rfl,
    holds.agrees rebuiltFollows root marker held rfl⟩

end History

/-- A project that was built and followed file by file has the index of a new build, provided that
no include pattern steps up. So any two ways to follow it to the same disk lead to the same index. -/
theorem follow_agrees (indexer : Indexer) (disk : Disk) (changes : List Change) (built : Indexer)
    (rooted : Path.IsPlace indexer.root.place) (descends : indexer.Descends)
    (history : indexer.History disk changes) (first : indexer.build disk = .ok built) :
    ∃ followed rebuilt index fresh, built.follow disk changes = .ok followed ∧
      indexer.build (Change.diskAfter disk changes) = .ok rebuilt ∧
      followed.index = some index ∧ rebuilt.index = some fresh ∧ index.Agrees fresh ∧
      ∀ start others second, indexer.History start others → indexer.build start = .ok second →
        Change.diskAfter start others = Change.diskAfter disk changes →
        ∃ other otherIndex, second.follow start others = .ok other ∧ other.index = some otherIndex ∧
          otherIndex.Agrees index := by
  obtain ⟨followed, rebuilt, index, fresh, ok, again, known, freshKnown, agrees⟩ :=
    history.exists_agrees rooted descends first
  refine ⟨followed, rebuilt, index, fresh, ok, again, known, freshKnown, agrees, ?_⟩
  intro start others second otherHistory otherFirst sameDisk
  obtain ⟨other, otherRebuilt, otherIndex, otherFresh, otherOk, otherAgain, otherKnown, otherFreshKnown,
    otherAgrees⟩ := otherHistory.exists_agrees rooted descends otherFirst
  rw [sameDisk, again] at otherAgain
  obtain rfl := Except.ok.inj otherAgain
  obtain rfl := Option.some.inj (freshKnown.symm.trans otherFreshKnown)
  exact ⟨other, otherIndex, otherOk, otherKnown, otherAgrees.trans agrees.symm⟩

/-- The small project with a second file. -/
def grownDisk : Disk :=
  Tracked.smallDisk.write ["p".toList, "b.go".toList]
    ("package b\ntype U int".toList.map fun c => UInt8.ofNat c.toNat)

/-- The small project with the second file instead of the first. -/
def shiftedDisk : Disk := grownDisk.delete ["p".toList, "a.go".toList]

/-- One file comes, the other goes, and both are read again in the end. -/
def smallChanges : List Change :=
  [.edit ["p".toList, "b.go".toList] grownDisk, .edit ["p".toList, "a.go".toList] shiftedDisk,
    .refresh "/p/a.go".toList, .refresh "b.go".toList]

/-- The small project followed through these changes. -/
theorem follow_agrees_small : ∃ built followed rebuilt index fresh,
    Tracked.smallStart.indexer.build Tracked.smallDisk = .ok built ∧
      built.follow Tracked.smallDisk smallChanges = .ok followed ∧
      Tracked.smallStart.indexer.build shiftedDisk = .ok rebuilt ∧
      followed.index = some index ∧ rebuilt.index = some fresh ∧ index.Agrees fresh := by
  obtain ⟨built, first⟩ : ∃ built, Tracked.smallStart.indexer.build Tracked.smallDisk = .ok built :=
    ⟨_, rfl⟩
  have valid : Change.Valid Tracked.smallDisk smallChanges := by
    refine ⟨by decide, Disk.isReadable_of_forall (by decide), fun other apart => ?_,
      by decide, Disk.isReadable_of_forall (by decide), fun other apart => ?_,
      .absolute ["p".toList, "a.go".toList] (by decide), by decide,
      .relative 0 ["b.go".toList] (by decide) (by decide), by decide, trivial⟩
    · exact Disk.bytes?_write_of_ne _ apart _
    · exact Disk.bytes?_delete_of_ne (by decide) (by decide) apart
  have settled : Change.Settled ["p".toList] smallChanges :=
    ⟨⟨"b.go".toList, by simp, by decide⟩, ⟨"/p/a.go".toList, by simp, by decide⟩, trivial⟩
  have history : Tracked.smallStart.indexer.History Tracked.smallDisk smallChanges := by
    refine ⟨⟨by decide, Disk.isReadable_of_forall (by decide), valid, settled⟩, ?_⟩
    rintro place ⟨path, member, rfl⟩
    simp only [smallChanges, List.mem_cons, reduceCtorEq, Change.refresh.injEq, false_or,
      List.not_mem_nil, or_false] at member
    rcases member with rfl | rfl
    · exact .inl (by decide)
    · exact .inr ⟨_, rfl, _, List.mem_singleton.mpr rfl, rfl⟩
  obtain ⟨followed, rebuilt, index, fresh, ok, again, known, freshKnown, agrees, -⟩ :=
    follow_agrees Tracked.smallStart.indexer Tracked.smallDisk smallChanges built (by decide)
      (by unfold Descends; decide) history first
  exact ⟨built, followed, rebuilt, index, fresh, first, ok, again, known, freshKnown, agrees⟩

/-- Changes that make up for every edit, and leave each edited place gone or discovered, but lead
to another index than a new build. -/
def Differs (indexer : Indexer) (disk : Disk) (changes : List Change) : Prop :=
  Change.History indexer.root.place disk changes ∧
    (∀ place, Change.Edits place changes →
      indexer.GoneOrListed (Change.diskAfter disk changes) place) ∧
    ∃ built followed rebuilt index fresh, indexer.build disk = .ok built ∧
      built.follow disk changes = .ok followed ∧
      indexer.build (Change.diskAfter disk changes) = .ok rebuilt ∧
      followed.index = some index ∧ rebuilt.index = some fresh ∧ ¬index.Agrees fresh

/-- The small project with a file of notes. -/
def notedDisk : Disk := Tracked.smallDisk.write ["p".toList, "notes.txt".toList] []

/-- An indexer of that project for one file, on a way by another directory and back. -/
def climbing : Indexer := { Tracked.smallStart.indexer with patterns := ["d/../a.go".toList] }

/-- The small project with a file in a directory of its own. -/
def deepDisk : Disk := Tracked.smallDisk.write ["p".toList, "d".toList, "b.go".toList] []

/-- That file comes and goes; the directory stays. -/
def passingChanges : List Change :=
  [.edit ["p".toList, "d".toList, "b.go".toList] deepDisk,
    .edit ["p".toList, "d".toList, "b.go".toList] (deepDisk.delete ["p".toList, "d".toList, "b.go".toList]),
    .refresh "d/b.go".toList]

/-- A file that would not be discovered can be read again without any edit, and a pattern that
steps up finds a file by way of a directory that was not there before. -/
theorem follow_differs :
    Tracked.smallStart.indexer.Differs notedDisk [.refresh "notes.txt".toList] ∧
      climbing.Differs Tracked.smallDisk passingChanges := by
  constructor
  · refine ⟨⟨by decide, Disk.isReadable_of_forall (by decide), ?_, trivial⟩, ?_, ?_⟩
    · exact ⟨.relative 0 ["notes.txt".toList] (by decide) (by decide), by decide, trivial⟩
    · rintro place ⟨disk, member⟩
      simp at member
    · refine ⟨_, _, _, _, _, rfl, rfl, rfl, rfl, rfl, fun agrees => ?_⟩
      exact absurd (agrees.files "notes.txt".toList) (by decide)
  · refine ⟨⟨by decide, Disk.isReadable_of_forall (by decide), ?_, ?_⟩, ?_, ?_⟩
    · refine ⟨by decide, Disk.isReadable_of_forall (by decide), fun other apart => ?_,
        by decide, Disk.isReadable_of_forall (by decide), fun other apart => ?_,
        .relative 0 ["d".toList, "b.go".toList] (by decide) (by decide), by decide, trivial⟩
      · exact Disk.bytes?_write_of_ne _ apart _
      · exact Disk.bytes?_delete_of_ne (by decide) (by decide) apart
    · exact ⟨⟨"d/b.go".toList, by simp, by decide⟩, ⟨"d/b.go".toList, by simp, by decide⟩, trivial⟩
    · rintro place ⟨disk, member⟩
      simp only [passingChanges, List.mem_cons, Change.edit.injEq, reduceCtorEq, List.not_mem_nil,
        or_false] at member
      rcases member with ⟨rfl, -⟩ | ⟨rfl, -⟩ <;> exact .inl (by decide)
    · refine ⟨_, _, _, _, _, rfl, rfl, rfl, rfl, rfl, fun agrees => ?_⟩
      exact absurd (agrees.files "a.go".toList) (by decide)

end Indexer

end ApiNotes
