import ApiNotes.Proofs.Declarations
import ApiNotes.Proofs.Spans
import ApiNotes.Query.File

/-!
# What stands at a line

A block is looked for at a line from the first one on, and given up where one begins below the line. Since
blocks ascend, what is found is the only block that contains the line (`Block.at?_eq_some_iff`). The notes
at a line and the folds at a line are those of this block (`GoFile.lookups_agree`).
-/

namespace ApiNotes

namespace Block

variable {marker : Text} {lines : List Text} {block other : Block} {line : Int}

/-- Of ascending blocks the first that contains a line is all that contain it: a block that begins below
the line has none after it. -/
theorem toList_firstCovering? {blocks : List Block} (ordered : ∀ block ∈ blocks, block.first ≤ block.last)
    (ascending : blocks.Pairwise fun a b => a.last < b.first) (line : Int) :
    (firstCovering? (.int line) blocks).toList = blocks.filter (·.contains line) := by
  induction blocks with
  | nil => rfl
  | cons block later ih =>
    obtain ⟨below, ascending⟩ := List.pairwise_cons.mp ascending
    obtain ⟨nonempty, ordered⟩ := List.forall_mem_cons.mp ordered
    have beyond : line ≤ block.last → later.filter (·.contains line) = [] := by
      intro before
      refine List.filter_eq_nil_iff.mpr fun next member contained => ?_
      have apart := below next member
      simp only [contains, decide_eq_true_eq] at contained
      omega
    simp only [firstCovering?, covers_int, Number.int_lt_int]
    by_cases here : block.contains line = true
    · have within : line ≤ block.last := (of_decide_eq_true here).2
      rw [if_pos here, List.filter_cons, if_pos here, beyond within]
      rfl
    · rw [if_neg here, List.filter_cons, if_neg here]
      by_cases above : line < block.first
      · rw [if_pos above, beyond (by omega)]
        rfl
      · rw [if_neg above]
        exact ih ordered ascending

/-- What is found at a line are the blocks that contain it. -/
theorem toList_at? (marker : Text) (lines : List Text) (line : Int) :
    (at? marker lines line).toList = (ofLines marker lines).filter (·.contains line) := by
  refine toList_firstCovering? (fun block member => ?_) ?_ line
  · obtain ⟨first, last, rfl, is⟩ := (mem_ofLines_iff marker lines block).mp member
    exact Int.ofNat_le.mpr is.ordered
  · refine (ofLines_ascending marker lines).imp fun {a b} before => ?_
    obtain ⟨-, gap, left, right, -⟩ := before
    omega

theorem at?_eq_some_iff :
    at? marker lines line = some block ↔ block ∈ ofLines marker lines ∧ block.contains line = true := by
  rw [← Option.mem_toList, toList_at?, List.mem_filter]

theorem at?_eq_none_iff :
    at? marker lines line = none ↔ ∀ block ∈ ofLines marker lines, block.contains line = false := by
  rw [← Option.toList_eq_nil_iff, toList_at?, List.filter_eq_nil_iff]
  simp only [Bool.not_eq_true]

/-- Blocks that contain one line are the same. -/
theorem eq_of_contains (member : block ∈ ofLines marker lines) (inside : block.contains line = true)
    (another : other ∈ ofLines marker lines) (there : other.contains line = true) : other = block :=
  Option.some.inj ((at?_eq_some_iff.mpr ⟨another, there⟩).symm.trans (at?_eq_some_iff.mpr ⟨member, inside⟩))

theorem contains_first (member : block ∈ ofLines marker lines) : block.contains block.first = true := by
  obtain ⟨first, last, rfl, is⟩ := (mem_ofLines_iff marker lines block).mp member
  have ordered := is.ordered
  simp only [contains, decide_eq_true_eq]
  omega

end Block

theorem Fold.block_mem {marker : Text} {lines : List Text} {fold : Fold} (member : fold ∈ ofLines marker lines) :
    fold.block ∈ Block.ofLines marker lines := by
  obtain ⟨block, inside, made⟩ := List.mem_filterMap.mp member
  dsimp only at made
  split_ifs at made
  obtain rfl := Option.some.inj made
  exact inside

namespace GoFile

variable {file : GoFile}

/-- The folds at a line are those of all folds of which the block contains the line. -/
theorem foldsAt_eq (file : GoFile) (config : Config) (line : Int) :
    file.foldsAt config line = (file.folds config).filter (·.block.contains line) := by
  have all : ∀ fold ∈ file.folds config, fold.block ∈ Block.ofLines config.marker file.lines :=
    fun fold member => Fold.block_mem member
  unfold foldsAt foldsCovering
  cases found : Block.covering? config.marker file.lines (.int line) with
  | none =>
    refine (List.filter_eq_nil_iff.mpr fun fold member => ?_).symm
    simp [Block.at?_eq_none_iff.mp found fold.block (all fold member)]
  | some block =>
    obtain ⟨known, contained⟩ := Block.at?_eq_some_iff.mp found
    refine List.filter_congr fun fold member => ?_
    rw [Bool.eq_iff_iff, decide_eq_true_iff]
    constructor
    · intro same
      have begins := Block.contains_first (all fold member)
      have own := Block.contains_first known
      rw [same] at begins
      rwa [Block.eq_of_contains known own (all fold member) begins]
    · intro inside
      rw [Block.eq_of_contains known contained (all fold member) inside]

/-- In a file that was read with the marker of a configuration, the notes at a line are one at most, and its
block is the block that is found at the line, which is the only one of the file that contains it; where none
is found there is no note. The folds at the line are those folds of the file that contain it. -/
theorem lookups_agree (config : Config) {name source : Text} (read : ofSource name config.marker source = .ok file)
    (line : Int) :
    (file.notesAt line).length ≤ 1 ∧
    (file.notesAt line).map (·.block) = (Block.at? config.marker file.lines line).toList ∧
    (Block.at? config.marker file.lines line = none ↔ file.notesAt line = []) ∧
    (∀ block, Block.at? config.marker file.lines line = some block ↔
      block ∈ Block.ofLines config.marker file.lines ∧ block.contains line = true) ∧
    file.foldsAt config line = (file.folds config).filter (·.block.contains line) := by
  have same : (file.notesAt line).map (·.block) = (Block.at? config.marker file.lines line).toList := by
    rw [Block.toList_at?, ← Note.map_block (ofLines_of_ofSource read), List.filter_map, notesAt, notesCovering]
    simp only [Function.comp_def, Block.covers_int]
  refine ⟨?_, same, ?_, fun block => Block.at?_eq_some_iff, file.foldsAt_eq config line⟩
  · rw [← List.length_map (·.block), same, Option.length_toList]
    split_ifs <;> omega
  · rw [← Option.toList_eq_nil_iff, ← same, List.map_eq_nil_iff]

/-- A block of two lines and one of a single line, with code between them. -/
def pairedFile : GoFile :=
  ⟨"a.go".toList, ["// Get godoc", "// @Tags a", "func Get()", "// @Tags godoc"].map String.toList, none, [], [],
    [⟨⟨1, 2⟩, [⟨2, .tag .tags, "a".toList, none, []⟩]⟩, ⟨⟨4, 4⟩, [⟨4, .tag .tags, "godoc".toList, none, []⟩]⟩]⟩

/-- The second line has the first block and its fold, the third neither, and the last a block without a
fold. -/
theorem lookups_agree_small : ∃ config, Config.ofEnvironment "/p".toList [] = .ok config ∧
    ofSource "a.go".toList config.marker
      "// Get godoc\n// @Tags a\nfunc Get()\n// @Tags godoc".toList = .ok pairedFile ∧
    (pairedFile.notesAt 2).map (·.block) = [⟨1, 2⟩] ∧ pairedFile.foldsAt config 2 = [⟨⟨1, 2⟩, 1⟩] ∧
    pairedFile.notesAt 3 = [] ∧
    (pairedFile.notesAt 4).map (·.block) = [⟨4, 4⟩] ∧ pairedFile.foldsAt config 4 = [] := by
  obtain ⟨config, configured, marker⟩ :
      ∃ config, Config.ofEnvironment "/p".toList [] = .ok config ∧ config.marker = defaultMarker :=
    ⟨_, rfl, rfl⟩
  have read : ofSource "a.go".toList config.marker
      "// Get godoc\n// @Tags a\nfunc Get()\n// @Tags godoc".toList = .ok pairedFile := by
    rw [marker]
    decide +kernel
  have found : ∀ line : Int, Block.at? config.marker pairedFile.lines line =
      Block.at? defaultMarker pairedFile.lines line := fun line => by rw [marker]
  have folds : pairedFile.folds config = [⟨⟨1, 2⟩, 1⟩] := by
    rw [folds, marker]
    decide +kernel
  obtain ⟨-, second, -, -, folded⟩ := lookups_agree config read 2
  obtain ⟨-, -, third, -⟩ := lookups_agree config read 3
  obtain ⟨-, last, -, -, unfolded⟩ := lookups_agree config read 4
  rw [found] at second third last
  rw [folds] at folded unfolded
  refine ⟨config, configured, read, second.trans ?_, folded.trans rfl, third.mp ?_, last.trans ?_,
    unfolded.trans rfl⟩
  all_goals decide +kernel

end GoFile

end ApiNotes
