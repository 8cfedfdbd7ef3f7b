import ApiNotes.Index.Indexer

/-!
# Patterns that exclude a directory

A pattern `**/name/**` is read twice: as a glob, whose stars pass over slashes, and as the name that
is left of it without its stars and slashes (`Exclusion.directoryName_belowDirectory`). The glob
finds the name between two slashes only, so whatever it admits has a directory of that name on it
(`Exclusion.passesThrough_of_admits`), and the second reading decides alone: such patterns exclude
just the paths with one of their directories before the last component
(`Indexer.isExcluded_belowDirectory_iff`).
-/

namespace ApiNotes

namespace Exclusion

variable {c : Char} {piece name path : Text}

/-! ## Taking pieces out of a text -/

theorem removeFrom_length (piece lead rest : Text) :
    removeFrom piece lead.length (lead ++ rest) = removeFrom piece 0 rest := by
  induction lead with
  | nil => rfl
  | cons d lead ih => exact ih

theorem remove_piece_append (c : Char) (piece rest : Text) :
    remove (c :: piece) (c :: piece ++ rest) = remove (c :: piece) rest := by
  have here : Text.startsWith (c :: piece) (c :: (piece ++ rest)) = true := by
    rw [Text.startsWith, ← List.cons_append, Text.after?_append]
    rfl
  rw [remove, List.cons_append, removeFrom, if_pos here]
  exact removeFrom_length _ piece rest

/-- A piece does not occur where its first character does not. -/
theorem remove_append {clear : Text} (absent : c ∉ clear) (rest : Text) :
    remove (c :: piece) (clear ++ rest) = clear ++ remove (c :: piece) rest := by
  induction clear with
  | nil => rfl
  | cons d clear ih =>
    have elsewhere : Text.startsWith (c :: piece) (d :: (clear ++ rest)) ≠ true := by
      simp [Text.startsWith, Text.after?, List.ne_of_not_mem_cons absent]
    rw [remove, List.cons_append, removeFrom, if_neg elsewhere]
    exact congrArg (d :: ·) (ih (List.not_mem_of_not_mem_cons absent))

theorem stripSlashes_eq_self (whole : '/' ∉ name) : stripSlashes name = name := by
  have kept : ∀ text : Text, '/' ∉ text → text.dropWhile (· = '/') = text := by
    intro text absent
    cases text with
    | nil => rfl
    | cons d rest =>
      exact List.dropWhile_cons_of_neg (by simpa using (List.ne_of_not_mem_cons absent).symm)
  rw [stripSlashes, kept name whole, kept _ (by simpa using whole), List.reverse_reverse]

/-! ## The two readings of a pattern -/

/-- A component of a path without characters that have a meaning of their own in a pattern. -/
structure IsPlainName (name : Text) : Prop where
  whole : '/' ∉ name
  plain : ∀ c ∈ name, Glob.IsPlain c

/-- The pattern for what is below a directory of this name, at any depth. -/
def belowDirectory (name : Text) : Text := "**/".toList ++ (name ++ "/**".toList)

/-- A component of a path text other than its last has this name. -/
def PassesThrough (name path : Text) : Prop :=
  ∃ above below, path.splitOn '/' = above ++ name :: below ∧ below ≠ []

theorem passesThrough_iff_mem : PassesThrough name path ↔ name ∈ (path.splitOn '/').dropLast := by
  constructor
  · rintro ⟨above, below, split, more⟩
    rw [split, List.dropLast_append_of_ne_nil (List.cons_ne_nil name below),
      List.dropLast_cons_of_ne_nil more]
    exact List.mem_append_right above List.mem_cons_self
  · intro member
    obtain ⟨above, below, split⟩ := List.append_of_mem member
    have whole := List.dropLast_concat_getLast (List.splitOn_ne_nil '/' path)
    rw [split, List.append_assoc, List.cons_append] at whole
    exact ⟨above, _, whole.symm, by simp⟩

theorem directoryName_belowDirectory (valid : IsPlainName name) :
    directoryName (belowDirectory name) = name := by
  have noStar : '*' ∉ name := fun member => (valid.plain '*' member).1 rfl
  have first : remove "**/".toList (belowDirectory name) = name ++ "/**".toList := by
    refine (remove_piece_append '*' "*/".toList _).trans ?_
    rw [remove_append noStar]
    rfl
  have second : remove "/**".toList (name ++ "/**".toList) = name :=
    (remove_append valid.whole _).trans (List.append_nil name)
  rw [directoryName, first, second, stripSlashes_eq_self valid.whole]

theorem read_belowDirectory (plain : ∀ c ∈ name, Glob.IsPlain c) : Glob.read (belowDirectory name) =
    .star :: .star :: (('/' :: name ++ ['/']).map .exactly ++ [.star, .star]) := by
  have read : Glob.read (belowDirectory name) =
      .star :: .star :: .exactly '/' :: Glob.readFrom 0 (name ++ "/**".toList) := rfl
  rw [read, Glob.readFrom_append plain, List.cons_append, List.map_cons, List.map_append,
    List.cons_append, List.append_assoc]
  rfl

/-- Whatever the glob admits has the name on it between two slashes. -/
theorem passesThrough_of_admits (valid : IsPlainName name)
    (admitted : (Glob.read (belowDirectory name)).admits path = true) : PassesThrough name path := by
  rw [read_belowDirectory valid.plain, Glob.admits_star_iff] at admitted
  obtain ⟨lead, tail, rfl, admitted⟩ := admitted
  rw [Glob.admits_star_iff] at admitted
  obtain ⟨more, tail, rfl, admitted⟩ := admitted
  rw [Glob.admits_exactly_append_iff] at admitted
  obtain ⟨rest, rfl, -⟩ := admitted
  refine ⟨(lead ++ more).splitOn '/', rest.splitOn '/', ?_, List.splitOn_ne_nil '/' rest⟩
  have spelled : lead ++ (more ++ ('/' :: name ++ ['/'] ++ rest)) =
      lead ++ more ++ '/' :: (name ++ '/' :: rest) := by simp
  rw [spelled, List.splitOn_append_cons_self, List.splitOn_append_cons_self,
    List.splitOn_eq_singleton valid.whole, List.singleton_append]

theorem excludes_belowDirectory_iff (valid : IsPlainName name) (path : Text) :
    excludes (belowDirectory name) path = true ↔ PassesThrough name path := by
  rw [excludes, directoryName_belowDirectory valid, Bool.or_eq_true, List.contains_iff_mem,
    ← passesThrough_iff_mem, or_iff_right_iff_imp]
  exact passesThrough_of_admits valid

theorem isExcluded_map_belowDirectory_iff {names : List Text} (valid : ∀ name ∈ names, IsPlainName name)
    (path : Text) : isExcluded (names.map belowDirectory) path = true ↔
      ∃ name ∈ names, PassesThrough name path := by
  rw [isExcluded, List.any_map, List.any_eq_true]
  exact exists_congr fun name => and_congr_right fun among => excludes_belowDirectory_iff (valid name among) path

/-! ## The directories that are left out where no pattern is given -/

/-- The names of other people's code, version control and test data. -/
def standardNames : List Text :=
  ["vendor".toList, "node_modules".toList, ".git".toList, "testdata".toList]

theorem standardPatterns_eq : standardPatterns = standardNames.map belowDirectory := rfl

theorem isPlainName_of_standard {name : Text} (standard : name ∈ standardNames) : IsPlainName name := by
  have each : standardNames.all fun name =>
      name.all fun c => c != '/' && c != '*' && c != '?' && c != '[' := by decide
  have letters := List.all_eq_true.mp (List.all_eq_true.mp each name standard)
  simp only [Bool.and_eq_true, bne_iff_ne] at letters
  exact ⟨fun member => (letters _ member).1.1.1 rfl,
    fun c member => ⟨(letters c member).1.1.2, (letters c member).1.2, (letters c member).2⟩⟩

end Exclusion

open Exclusion

/-- An indexer that is given patterns for directories excludes a path just if one of the directories
is on it, and if it is given none, just if one of the standard ones is. -/
theorem Indexer.isExcluded_belowDirectory_iff (names : List Text)
    (valid : ∀ name ∈ names, IsPlainName name) (root : Root) (patterns : List Text)
    (sizeLimit : Number.Given) (marker path : Text) :
    (Exclusion.isExcluded (names.map belowDirectory) path = true ↔
        ∃ name ∈ names, PassesThrough name path) ∧
      ((Indexer.start root patterns (names.map belowDirectory) sizeLimit marker).isExcluded path = true ↔
        ∃ name ∈ if names = [] then standardNames else names, PassesThrough name path) := by
  refine ⟨isExcluded_map_belowDirectory_iff valid path, ?_⟩
  have given : (Indexer.start root patterns (names.map belowDirectory) sizeLimit marker).excluded =
      (if names = [] then standardNames else names).map belowDirectory := by
    by_cases none : names = []
    · simp [Indexer.start, none, standardPatterns_eq]
    · simp [Indexer.start, none]
  rw [Indexer.isExcluded, given]
  refine isExcluded_map_belowDirectory_iff ?_ path
  split
  · exact fun _ => isPlainName_of_standard
  · exact valid

/-- An indexer of a project at `/p` that is given the patterns for a directory `vendor`. -/
def Indexer.withoutVendor : Indexer :=
  Indexer.start ⟨["p".toList], false⟩ [] (["vendor".toList].map belowDirectory) (.ok (.int 100)) []

/-- A directory at the top is left out, too, but no file of that name. -/
theorem Indexer.isExcluded_withoutVendor : withoutVendor.isExcluded "vendor/a.go".toList = true ∧
    ¬withoutVendor.isExcluded "a/vendor".toList = true := by
  have excluded := isExcluded_belowDirectory_iff ["vendor".toList]
    (fun _ among => isPlainName_of_standard (List.mem_append_left _ among)) ⟨["p".toList], false⟩ []
    (.ok (.int 100)) []
  constructor
  · exact (excluded _).2.mpr ⟨"vendor".toList, List.mem_cons_self, [], ["a.go".toList], by decide, by simp⟩
  · intro out
    obtain ⟨name, among, through⟩ := (excluded _).2.mp out
    obtain rfl : name = "a".toList := List.mem_singleton.mp (passesThrough_iff_mem.mp through)
    exact absurd among (by decide)

end ApiNotes
