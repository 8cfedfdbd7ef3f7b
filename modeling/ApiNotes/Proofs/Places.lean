import ApiNotes.Disk.Tree
import Mathlib.Data.List.Basic
import Mathlib.Data.List.Infix

/-!
# Places on a disk

A path text seen from a directory means a place, and the path text that is written for a place
means that place again (`Path.resolve_fromRoot`). On a disk that is a tree of directories
(`Disk.IsTree`) a path text in normal form leads where its text says, as long as there is a
directory to start from (`Disk.read_normal`).
-/

namespace ApiNotes

namespace Path

structure IsName (name : Text) : Prop where
  ne_nil : name ≠ []
  ne_here : name ≠ here
  ne_up : name ≠ up
  no_slash : '/' ∉ name

instance (name : Text) : Decidable (IsName name) :=
  decidable_of_iff (name ≠ [] ∧ name ≠ here ∧ name ≠ up ∧ '/' ∉ name)
    ⟨fun ⟨ne_nil, ne_here, ne_up, no_slash⟩ => ⟨ne_nil, ne_here, ne_up, no_slash⟩,
      fun isName => ⟨isName.ne_nil, isName.ne_here, isName.ne_up, isName.no_slash⟩⟩

/-- A place that is reached by names alone. -/
def IsPlace (place : Path) : Prop := ∀ name ∈ place, IsName name

instance (place : Path) : Decidable (IsPlace place) :=
  inferInstanceAs (Decidable (∀ name ∈ place, IsName name))

theorem IsPlace.append {place names : Path} (isPlace : IsPlace place) (areNames : IsPlace names) :
    IsPlace (place ++ names) :=
  fun name member => (List.mem_append.mp member).elim (isPlace name) (areNames name)

theorem step_name (place : Path) {name : Text} (isName : IsName name) :
    step place name = place ++ [name] := by
  simp [step, isName.ne_nil, isName.ne_here, isName.ne_up]

theorem foldl_step_names (place : Path) {names : List Text} (areNames : IsPlace names) :
    names.foldl step place = place ++ names := by
  induction names generalizing place with
  | nil => simp
  | cons name rest ih =>
    rw [List.foldl_cons, step_name place (areNames name (by simp)),
      ih _ fun other member => areNames other (List.mem_cons_of_mem _ member)]
    simp

theorem step_up (place : Path) : step place up = place.dropLast := by
  simp [step, up, here]

theorem foldl_step_up (place : Path) (count : Nat) :
    (List.replicate count up).foldl step place = place.take (place.length - count) := by
  induction count generalizing place with
  | zero => simp
  | succ count ih =>
    rw [List.replicate_succ, List.foldl_cons, step_up, ih, List.dropLast_eq_take, List.take_take,
      List.length_take]
    congr 1
    omega

theorem isPlace_step {place : Path} (isPlace : IsPlace place) {name : Text} (no_slash : '/' ∉ name) :
    IsPlace (step place name) := by
  unfold step
  split_ifs with still above
  · exact isPlace
  · exact fun other member => isPlace other (List.mem_of_mem_dropLast member)
  · refine isPlace.append fun other member => ?_
    obtain rfl := List.mem_singleton.mp member
    exact ⟨fun equal => still (by simp [equal]), fun equal => still (by simp [equal]), above, no_slash⟩

theorem isPlace_foldl_step {place : Path} (isPlace : IsPlace place) {parts : List Text}
    (no_slash : ∀ part ∈ parts, '/' ∉ part) : IsPlace (parts.foldl step place) := by
  induction parts generalizing place with
  | nil => exact isPlace
  | cons part rest ih =>
    exact ih (isPlace_step isPlace (no_slash part (by simp)))
      fun other member => no_slash other (List.mem_cons_of_mem _ member)

theorem isPlace_resolve {directory : Path} (isPlace : IsPlace directory) (text : Text) :
    IsPlace (resolve directory text) := by
  refine isPlace_foldl_step ?_ fun part member slash => (Text.of_mem_splitOn member slash).2 rfl
  split
  · simp [IsPlace]
  · exact isPlace

/-! ## Writing a place and reading it again -/

theorem splitOn_join {names : List Text} (some : names ≠ []) (no_slash : ∀ name ∈ names, '/' ∉ name) :
    (join names).splitOn '/' = names :=
  List.splitOn_intercalate '/' no_slash some

theorem shared_le (a b : Path) : shared a b ≤ a.length := by
  fun_induction shared a b <;> simp_all

theorem take_shared (a b : Path) : a.take (shared a b) = b.take (shared a b) := by
  fun_induction shared a b <;> simp_all

/-- The steps from a root to a place: up as far as needed, then down by names. -/
def stepsFrom (root place : Path) : List Text :=
  List.replicate (root.length - shared root place) up ++ place.drop (shared root place)

theorem fromRoot_eq (root place : Path) :
    fromRoot root place = if stepsFrom root place = [] then here else join (stepsFrom root place) := by
  simp only [fromRoot]
  rw [← stepsFrom]
  cases stepsFrom root place <;> simp

theorem foldl_stepsFrom (root : Path) {place : Path} (isPlace : IsPlace place) :
    (stepsFrom root place).foldl step root = place := by
  have within := shared_le root place
  have below : IsPlace (place.drop (shared root place)) :=
    fun name member => isPlace name (List.mem_of_mem_drop member)
  rw [stepsFrom, List.foldl_append, foldl_step_up, foldl_step_names _ below,
    show root.length - (root.length - shared root place) = shared root place by omega, take_shared,
    List.take_append_drop]

theorem plain_steps (ups : Nat) {names : Path} (areNames : IsPlace names) :
    ∀ part ∈ List.replicate ups up ++ names, '/' ∉ part ∧ part ≠ [] := by
  intro part member
  rcases List.mem_append.mp member with above | below
  · rw [List.eq_of_mem_replicate above]
    decide
  · exact ⟨(areNames part below).no_slash, (areNames part below).ne_nil⟩

theorem plain_stepsFrom {root place : Path} (isPlace : IsPlace place) :
    ∀ part ∈ stepsFrom root place, '/' ∉ part ∧ part ≠ [] :=
  plain_steps _ fun name member => isPlace name (List.mem_of_mem_drop member)

/-- The parts of the path text of a place. -/
theorem splitOn_fromRoot {root place : Path} (isPlace : IsPlace place) :
    (fromRoot root place).splitOn '/' =
      if stepsFrom root place = [] then [here] else stepsFrom root place := by
  rw [fromRoot_eq]
  split
  · decide
  · rename_i some
    exact splitOn_join some fun part member => (plain_stepsFrom isPlace part member).1

theorem isAbsolute_join {names : List Text} (plain : ∀ name ∈ names, '/' ∉ name ∧ name ≠ []) :
    isAbsolute (join names) = false := by
  cases names with
  | nil => rfl
  | cons name rest =>
    obtain ⟨no_slash, some⟩ := plain name (by simp)
    obtain ⟨c, more, rfl⟩ := List.exists_cons_of_ne_nil some
    have apart : c ≠ '/' := by
      rintro rfl
      simp at no_slash
    cases rest <;> simp [isAbsolute, join, List.intercalate, List.intersperse, apart]

theorem isAbsolute_fromRoot (root : Path) {place : Path} (isPlace : IsPlace place) :
    isAbsolute (fromRoot root place) = false := by
  rw [fromRoot_eq]
  split
  · rfl
  · exact isAbsolute_join (plain_stepsFrom isPlace)

/-- The path text of a place means that place. -/
theorem resolve_fromRoot (root : Path) {place : Path} (isPlace : IsPlace place) :
    resolve root (fromRoot root place) = place := by
  rw [resolve, isAbsolute_fromRoot root isPlace, splitOn_fromRoot isPlace, if_neg (by simp)]
  split
  · rename_i none
    have same := foldl_stepsFrom root isPlace
    rw [none] at same
    simpa [step] using same
  · exact foldl_stepsFrom root isPlace

/-- Two places do not share a path text. -/
theorem fromRoot_inj {root place other : Path} (isPlace : IsPlace place) (isOther : IsPlace other)
    (same : fromRoot root place = fromRoot root other) : place = other := by
  rw [← resolve_fromRoot root isPlace, same, resolve_fromRoot root isOther]

theorem resolve_join (directory : Path) {steps : List Text} (some : steps ≠ [])
    (plain : ∀ part ∈ steps, '/' ∉ part ∧ part ≠ []) :
    resolve directory (join steps) = steps.foldl step directory := by
  rw [resolve, isAbsolute_join plain, splitOn_join some fun part member => (plain part member).1]
  rfl

/-- A path text in normal form: absolute, or some steps up and then names. -/
inductive Normal : Text → Prop
  | absolute (names : Path) (areNames : IsPlace names) : Normal (text names)
  | doubled (names : Path) (areNames : IsPlace names) : Normal ('/' :: text names)
  | here : Normal here
  | relative (ups : Nat) (names : Path) (areNames : IsPlace names)
      (some : List.replicate ups up ++ names ≠ []) : Normal (join (List.replicate ups up ++ names))

theorem normal_fromRoot (root : Path) {place : Path} (isPlace : IsPlace place) :
    Normal (fromRoot root place) := by
  rw [fromRoot_eq]
  split
  · exact .here
  · rename_i some
    exact .relative _ _ (fun name member => isPlace name (List.mem_of_mem_drop member)) some

theorem of_mem_join {names : List Text} {c : Char} (member : c ∈ join names) :
    c = '/' ∨ ∃ name ∈ names, c ∈ name := by
  induction names with
  | nil => simp [join, List.intercalate] at member
  | cons name rest ih =>
    cases rest with
    | nil => exact .inr ⟨name, by simp, by simpa [join, List.intercalate] using member⟩
    | cons next more =>
      have split : join (name :: next :: more) = name ++ '/' :: join (next :: more) := by
        simp [join, List.intercalate]
      rw [split, List.mem_append, List.mem_cons] at member
      rcases member with first | slash | later
      · exact .inr ⟨name, by simp, first⟩
      · exact .inl slash
      · obtain same | ⟨other, among, inside⟩ := ih later
        · exact .inl same
        · exact .inr ⟨other, List.mem_cons_of_mem _ among, inside⟩

/-- The path text of a place has no characters but those of its names, dots and slashes. -/
theorem of_mem_fromRoot {root place : Path} {c : Char} (member : c ∈ fromRoot root place) :
    c = '.' ∨ c = '/' ∨ ∃ name ∈ place, c ∈ name := by
  rw [fromRoot_eq] at member
  split at member
  · exact .inl (by simpa [here] using member)
  · obtain slash | ⟨name, among, inside⟩ := of_mem_join member
    · exact .inr (.inl slash)
    · rcases List.mem_append.mp among with above | below
      · rw [List.eq_of_mem_replicate above] at inside
        exact .inl (by simpa [up] using inside)
      · exact .inr (.inr ⟨name, List.mem_of_mem_drop below, inside⟩)

end Path

namespace Disk

/-- The directories and files of a disk make a tree, and go by names without null characters. -/
structure IsTree (disk : Disk) : Prop where
  names : ∀ place, disk.holds place = true → Path.IsPlace place ∧ ∀ name ∈ place, '\x00' ∉ name
  above : ∀ place, disk.holds place = true → disk.isDirectory place.dropLast = true
  apart : ∀ place, disk.isFile place = true → disk.isDirectory place = false

theorem holds_of_isDirectory {disk : Disk} {place : Path} (directory : disk.isDirectory place = true) :
    disk.holds place = true := by
  simp [holds, directory]

theorem holds_of_isFile {disk : Disk} {place : Path} (file : disk.isFile place = true) :
    disk.holds place = true := by
  simp [holds, file]

theorem mem_of_holds {disk : Disk} {place : Path} (held : disk.holds place = true) (some : place ≠ []) :
    place ∈ disk.directories ∨ place ∈ disk.files.map (·.1) := by
  rw [holds, Bool.or_eq_true] at held
  rcases held with directory | file
  · exact .inl (by simpa [isDirectory, some] using directory)
  · obtain ⟨bytes, there⟩ := Option.isSome_iff_exists.mp file
    obtain ⟨before, after, equal, -⟩ := List.lookup_eq_some_iff.mp there
    exact .inr (by simp [equal])

theorem isFile_of_mem {disk : Disk} {place : Path} (member : place ∈ disk.files.map (·.1)) :
    disk.isFile place = true := by
  obtain ⟨⟨place, bytes⟩, inside, rfl⟩ := List.mem_map.mp member
  refine Option.isSome_iff_ne_none.mpr fun none => ?_
  exact absurd (List.lookup_eq_none_iff.mp none (place, bytes) inside) (by simp)

theorem holds_of_mem {disk : Disk} {place : Path}
    (member : place ∈ disk.directories ∨ place ∈ disk.files.map (·.1)) : disk.holds place = true := by
  rcases member with directory | file
  · simp [holds, isDirectory, directory]
  · exact holds_of_isFile (isFile_of_mem file)

/-- Whether a disk is a tree can be told from what it lists. -/
theorem isTree_iff (disk : Disk) : disk.IsTree ↔
    (∀ place ∈ disk.directories ++ disk.files.map (·.1), Path.IsPlace place ∧
      (∀ name ∈ place, '\x00' ∉ name) ∧ disk.isDirectory place.dropLast = true) ∧
    ∀ place ∈ disk.files.map (·.1), disk.isDirectory place = false := by
  constructor
  · refine fun tree => ⟨fun place member => ?_, fun place member => tree.apart place (isFile_of_mem member)⟩
    have held := holds_of_mem (List.mem_append.mp member)
    exact ⟨(tree.names place held).1, (tree.names place held).2, tree.above place held⟩
  · rintro ⟨listed, apart⟩
    have known : ∀ place, disk.holds place = true → place ≠ [] →
        place ∈ disk.directories ++ disk.files.map (·.1) :=
      fun place held some => List.mem_append.mpr (mem_of_holds held some)
    refine ⟨fun place held => ?_, fun place held => ?_, fun place file => ?_⟩
    · by_cases some : place = []
      · simp [some, Path.IsPlace]
      · obtain ⟨isPlace, no_null, -⟩ := listed place (known place held some)
        exact ⟨isPlace, no_null⟩
    · by_cases some : place = []
      · simp [some, isDirectory]
      · exact (listed place (known place held some)).2.2
    · obtain ⟨bytes, there⟩ := Option.isSome_iff_exists.mp file
      obtain ⟨before, after, equal, -⟩ := List.lookup_eq_some_iff.mp there
      exact apart place (by simp [equal])

instance (disk : Disk) : Decidable disk.IsTree := decidable_of_iff _ (isTree_iff disk).symm

theorem isFile_of_text? {disk : Disk} {place : Path} {text : Text}
    (found : disk.text? place = some text) : disk.isFile place = true := by
  obtain ⟨bytes, there, -⟩ := Option.map_eq_some_iff.mp found
  simp [isFile, there]

theorem text?_eq_none_iff (disk : Disk) (place : Path) :
    disk.text? place = none ↔ disk.isFile place = false := by
  simp [text?, isFile]

namespace IsTree

variable {disk : Disk}

/-- What leads to something is made of directories. -/
theorem isDirectory_above (tree : disk.IsTree) {place below : Path} (some : below ≠ [])
    (held : disk.holds (place ++ below) = true) : disk.isDirectory place = true := by
  induction below using List.reverseRecOn with
  | nil => exact absurd rfl some
  | append_singleton rest name ih =>
    have step := tree.above _ held
    rw [← List.append_assoc, List.dropLast_concat] at step
    by_cases last : rest = []
    · simpa [last] using step
    · exact ih last (holds_of_isDirectory step)

theorem holds_above (tree : disk.IsTree) {place below : Path}
    (held : disk.holds (place ++ below) = true) : disk.holds place = true := by
  by_cases some : below = []
  · simpa [some] using held
  · exact holds_of_isDirectory (tree.isDirectory_above some held)

theorem isDirectory_take (tree : disk.IsTree) {place : Path} (directory : disk.isDirectory place = true)
    (count : Nat) : disk.isDirectory (place.take count) = true := by
  by_cases rest : place.drop count = []
  · have whole := List.take_append_drop count place
    rw [rest, List.append_nil] at whole
    rwa [whole]
  · refine tree.isDirectory_above rest ?_
    rw [List.take_append_drop]
    exact holds_of_isDirectory directory

/-- Names lead to what is held under them. -/
theorem walk_names (tree : disk.IsTree) {place : Path} {names : List Text} (areNames : Path.IsPlace names)
    (held : disk.holds (place ++ names) = true) : disk.walk place names = .ok (place ++ names) := by
  induction names generalizing place with
  | nil => simp [walk]
  | cons name rest ih =>
    have open_ := tree.isDirectory_above (List.cons_ne_nil name rest) held
    have split : place ++ name :: rest = place ++ [name] ++ rest := by simp
    rw [walk, if_pos open_, Path.step_name place (areNames name (by simp)), split]
    exact ih (fun other member => areNames other (List.mem_cons_of_mem _ member)) (split ▸ held)

theorem walk_ups (tree : disk.IsTree) {place : Path} (directory : disk.isDirectory place = true)
    (ups : Nat) (rest : List Text) :
    disk.walk place (List.replicate ups Path.up ++ rest) =
      disk.walk (place.take (place.length - ups)) rest := by
  induction ups generalizing place with
  | zero => simp
  | succ ups ih =>
    have above : disk.isDirectory place.dropLast = true := by
      rw [List.dropLast_eq_take]
      exact tree.isDirectory_take directory _
    rw [List.replicate_succ, List.cons_append, walk, if_pos directory, Path.step_up, ih above,
      List.length_dropLast, List.dropLast_eq_take, List.take_take,
      Nat.min_eq_left (by omega), show place.length - 1 - ups = place.length - (ups + 1) by omega]

end IsTree

/-- Wherever a walk leads is what its steps mean. -/
theorem walk_ok {disk : Disk} {place target : Path} {steps : List Text}
    (walked : disk.walk place steps = .ok target) : target = steps.foldl Path.step place := by
  induction steps generalizing place with
  | nil => exact (Except.ok.inj walked).symm
  | cons name rest ih =>
    rw [walk] at walked
    split at walked
    · exact ih walked
    · cases walked

/-- A text that is read at a path text is the text at the place that it means. -/
theorem text?_of_read {disk : Disk} {directory : Path} {path text : Text}
    (found : disk.read directory path = .ok text) :
    disk.text? (Path.resolve directory path) = some text := by
  unfold read locate at found
  cases walked : disk.walk (if Path.isAbsolute path then [] else directory) (path.splitOn '/') with
  | error fault =>
    rw [walked] at found
    cases found
  | ok target =>
    rw [walked] at found
    obtain rfl := walk_ok walked
    simp only [bind, Except.bind] at found
    split at found
    · rename_i content there
      obtain rfl := Except.ok.inj found
      exact there
    · cases found

theorem read_ok_of_walk {disk : Disk} {directory target : Path} {path text : Text}
    (walked : disk.walk (if Path.isAbsolute path then [] else directory) (path.splitOn '/') = .ok target)
    (found : disk.text? target = some text) : disk.read directory path = .ok text := by
  simp [read, locate, walked, bind, Except.bind, found, pure, Except.pure]

/-- Without a directory to start from a relative path text leads nowhere. -/
theorem read_of_not_isDirectory {disk : Disk} {directory : Path} {path : Text}
    (relative : Path.isAbsolute path = false) (closed : disk.isDirectory directory = false) :
    (disk.read directory path).toOption = none := by
  obtain ⟨part, rest, parts⟩ := List.exists_cons_of_ne_nil (List.splitOn_ne_nil '/' path)
  simp [read, locate, relative, parts, walk, closed, bind, Except.bind, Except.toOption]

/-- On a tree a relative path text in normal form leads to the file that it means. -/
theorem read_normal {disk : Disk} (tree : disk.IsTree) {directory : Path} {path text : Text}
    (normal : Path.Normal path) (relative : Path.isAbsolute path = false)
    (opened : disk.isDirectory directory = true)
    (found : disk.text? (Path.resolve directory path) = some text) :
    disk.read directory path = .ok text := by
  have held := holds_of_isFile (isFile_of_text? found)
  cases normal with
  | absolute names areNames => simp [Path.isAbsolute, Path.text] at relative
  | doubled names areNames => simp [Path.isAbsolute] at relative
  | here =>
    have walked : disk.walk (if Path.isAbsolute Path.here then [] else directory)
        (Path.here.splitOn '/') = .ok directory := by
      simp [relative, show Path.here.splitOn '/' = [Path.here] by decide, walk, opened, Path.step]
    exact read_ok_of_walk walked found
  | relative ups names areNames some =>
    have plain := Path.plain_steps ups areNames
    rw [Path.resolve_join directory some plain, List.foldl_append, Path.foldl_step_up,
      Path.foldl_step_names _ areNames] at found held
    refine read_ok_of_walk ?_ found
    rw [Path.splitOn_join some fun part member => (plain part member).1, relative, if_neg (by simp),
      tree.walk_ups opened]
    exact tree.walk_names areNames held

/-! ## Changes of one file -/

private theorem lookup_filter (keep : Path → Bool) (files : List (Path × List UInt8)) (place : Path) :
    (files.filter fun entry => keep entry.1).lookup place =
      if keep place then files.lookup place else none := by
  induction files with
  | nil => simp
  | cons entry rest ih =>
    by_cases kept : keep entry.1 = true
    · rw [List.filter_cons_of_pos (by simpa using kept), List.lookup_cons, List.lookup_cons, ih]
      by_cases same : place = entry.1
      · simp [same, kept]
      · simp [beq_eq_false_iff_ne.mpr same]
    · rw [List.filter_cons_of_neg (by simpa using kept), List.lookup_cons, ih]
      by_cases same : place = entry.1
      · simp [same, kept]
      · simp [beq_eq_false_iff_ne.mpr same]

/-- A file that is written leaves the others. -/
theorem bytes?_write_of_ne (disk : Disk) {place other : Path} (apart : other ≠ place)
    (bytes : List UInt8) : (disk.write place bytes).bytes? other = disk.bytes? other := by
  have kept := lookup_filter (fun entry => entry ≠ place) disk.files other
  simp only [bytes?, write, makeDirectory, List.lookup_append, List.lookup_cons,
    beq_eq_false_iff_ne.mpr apart, List.lookup_nil, Option.or_none]
  rw [kept]
  simp [apart]

/-- A file that is deleted leaves the others. -/
theorem bytes?_delete_of_ne {disk : Disk} (tree : disk.IsTree) {place other : Path}
    (file : disk.isFile place = true) (apart : other ≠ place) :
    (disk.delete place).bytes? other = disk.bytes? other := by
  have kept := lookup_filter (fun entry => !place.isPrefixOf entry) disk.files other
  rw [bytes?, bytes?, delete, kept]
  by_cases below : place <+: other
  · obtain ⟨names, rfl⟩ := below
    -- Below a file there is nothing.
    have some : names ≠ [] := by simpa using apart
    have nothing : disk.files.lookup (place ++ names) = none := by
      rw [← Option.not_isSome_iff_eq_none]
      intro there
      have opened := tree.isDirectory_above some (holds_of_isFile there)
      exact absurd ((tree.apart place file).symm.trans opened) (by simp)
    simp [nothing]
  · have apart : place.isPrefixOf other = false := by
      rw [← Bool.not_eq_true, List.isPrefixOf_iff_prefix]
      exact below
    simp [apart]

end Disk

end ApiNotes
