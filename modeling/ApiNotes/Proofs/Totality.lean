import ApiNotes.Index.Indexer
import ApiNotes.Note.Fold
import ApiNotes.Note.Highlight
import ApiNotes.Proofs.Extraction
import ApiNotes.Proofs.Grammar

/-!
# Which documents can be read

Blocks and folds are found in any document. Reading fails on one form of line only, an outcome whose
status code has more digits than a number may have, and `SpellsLongStatus` says how such a line is
written. An operation succeeds just if no line that it reads is one of these (`reading_succeeds_iff`),
and the lines that it looks up are lines of the document.
-/

namespace ApiNotes

open Text

/-! ## How a long status code is written -/

/-- Whether ten successive code points lie inside, with no change after the first of them. -/
def CodeSet.containsTen (inside : Bool) : List Nat → Nat → Bool
  | [], _ => inside
  | change :: later, code =>
    if code < change then inside && code + 9 < change else containsTen (!inside) later code

theorem CodeSet.containsFrom_of_containsTen {inside : Bool} {changes : List Nat} {code step : Nat}
    (ten : containsTen inside changes code = true) (within : step < 10) :
    containsFrom inside changes (code + step) = true := by
  induction changes generalizing inside with
  | nil => exact ten
  | cons change later ih =>
    rw [containsTen] at ten
    rw [containsFrom]
    split_ifs at ten with before
    · obtain ⟨all, beyond⟩ : inside = true ∧ code + 9 < change := by simpa using ten
      rw [if_pos (by omega), all]
    · rw [if_neg (by omega)]
      exact ih ten

/-- Decimal digits are word characters. -/
theorem Text.isWord_of_isDigit {c : Char} (digit : isDigit c = true) : isWord c = true := by
  obtain ⟨value, found⟩ := Option.isSome_iff_exists.mp digit
  obtain ⟨start, known, -⟩ := Option.map_eq_some_iff.mp found
  have within := List.find?_some known
  simp only [Bool.and_eq_true, decide_eq_true_eq] at within
  obtain ⟨step, small, same⟩ : ∃ step, step < 10 ∧ c.toNat = start + step :=
    ⟨c.toNat - start, by omega, by omega⟩
  rcases List.mem_cons.mp (List.mem_of_find?_eq_some known) with rfl | member
  · have plain : ∀ step < 10, isWord (Char.ofNat (0x30 + step)) = true := by decide
    have holds := plain step small
    rwa [← same, Char.ofNat_toNat] at holds
  · -- The ten digits of any other script lie in one range of the word characters.
    have ranges : ∀ start ∈ digitZeros.tail,
        128 ≤ start ∧ CodeSet.containsTen false wordSet.changes start = true := by decide +kernel
    obtain ⟨beyond, ten⟩ := ranges start member
    rw [isWord, if_neg (by omega), same]
    exact CodeSet.containsFrom_of_containsTen ten small

/-- A line that spells an outcome whose status code has more digits than a number may have. White space
before the digits may break the line; after that a line break may only end it. -/
inductive SpellsLongStatus : Text → Prop
  | intro (outcome : Outcome) {indent inset gap digits space object more : Text}
      (indentBlank : AllBlank indent) (insetBlank : AllBlank inset)
      (gapBlank : AllBlank gap) (apart : gap ≠ [])
      (decimal : ∀ c ∈ digits, isDigit c = true) (long : digitLimit < digits.length)
      (spaceBlank : AllBlank space) (spaced : space ≠ [])
      (filled : object ≠ []) (unclosed : '}' ∉ object)
      (oneLine : '\n' ∉ (digits ++ (space ++ '{' :: (object ++ '}' :: more))).dropLast) :
      SpellsLongStatus (indent ++ '/' :: '/' :: (inset ++ '@' ::
        ((Keyword.outcome outcome).text ++
          (gap ++ (digits ++ (space ++ '{' :: (object ++ '}' :: more)))))))

theorem LongStatus.spells {line : Text} (overlong : LongStatus line) : SpellsLongStatus line := by
  obtain ⟨word, rest, outcome, digits, object, more, read, known, parts, long⟩ := overlong
  obtain ⟨nonempty, decimal, filled, unclosed, space, spaced, spaceBlank, rfl⟩ :=
    responseParts?_eq_some_iff.mp parts
  obtain ⟨-, -, -, indent, inset, gap, tail, blank, insetBlank, gapBlank, -, stops, oneLine, rfl⟩ :=
    keywordAndRest?_eq_some_iff.mp read
  obtain rfl := Keyword.ofText?_eq_some_iff.mp known
  -- Without a gap the digits would belong to the keyword.
  have apart : gap ≠ [] := by
    rintro rfl
    obtain ⟨d, others, rfl⟩ := List.exists_cons_of_ne_nil nonempty
    have other := stops d (by simp)
    rw [isWord_of_isDigit (decimal d (by simp))] at other
    cases other
  simp only [List.append_assoc, List.cons_append] at oneLine ⊢
  exact .intro outcome blank insetBlank gapBlank apart decimal long spaceBlank spaced filled unclosed
    oneLine

theorem SpellsLongStatus.longStatus {line : Text} (spells : SpellsLongStatus line) :
    LongStatus line := by
  obtain ⟨outcome, indentBlank, insetBlank, gapBlank, apart, decimal, long, spaceBlank, spaced, filled,
    unclosed, oneLine⟩ := spells
  rename_i indent inset gap digits space object more
  -- The rest of the line is read up to the blanks at its end.
  obtain ⟨tail, tailBlank, split⟩ := exists_trimRight more
  have nonempty : digits ≠ [] := List.length_pos_iff.mp (by omega)
  have starts : StartsFirm (digits ++ (space ++ '{' :: (object ++ '}' :: trimRight more))) :=
    (startsFirm_of_forall fun c member => isBlank_of_isDigit (decimal c member)).append nonempty
  have ends : EndsFirm (digits ++ (space ++ '{' :: (object ++ '}' :: trimRight more))) := by
    have brace := ((endsFirm_trimRight more).cons (c := '}') (by decide)).append (by simp)
      (digits ++ (space ++ '{' :: object))
    simpa using brace
  have stops : ∀ c ∈ (gap ++ (digits ++ (space ++ '{' :: (object ++ '}' :: trimRight more)))).head?,
      isWord c = false :=
    stops_at_gap gapBlank apart (fun _ => isWord_of_isBlank) _
  refine ⟨(Keyword.outcome outcome).text, _, outcome, digits, object, trimRight more,
    keywordAndRest?_eq_some_iff.mpr ⟨Keyword.isWord_text _, starts, ends, indent, inset, gap, tail,
      indentBlank, insetBlank, gapBlank, tailBlank, stops, ?_, ?_⟩,
    Keyword.ofText?_text _, responseParts?_eq_some_iff.mpr ⟨nonempty, decimal, filled, unclosed, space,
      spaced, spaceBlank, rfl⟩, long⟩
  · simpa [← split] using oneLine
  · simp [← split]

theorem longStatus_iff {line : Text} : LongStatus line ↔ SpellsLongStatus line :=
  ⟨LongStatus.spells, SpellsLongStatus.longStatus⟩

/-! ## Which lines are read -/

/-- None of the lines that are read spells too long a status code. -/
def NoneTooLong (lines : List Text) (isRead : Nat → Prop) : Prop :=
  ∀ number line, isRead number → lineAt? lines number = some line → ¬SpellsLongStatus line

theorem exists_readAll_iff {α β ε : Type} {f : α → Except ε (Option β)} (items : List α) :
    (∃ results, readAll f items = .ok results) ↔ ∀ item ∈ items, ∃ result, f item = .ok result := by
  rw [← exists_mapM_iff]
  unfold readAll
  cases items.mapM f <;> simp [bind, Except.bind, pure, Except.pure]

theorem noneTooLong_iff {p : Nat → Bool} {isRead : Nat → Prop} (same : ∀ n, p n = true ↔ isRead n)
    (lines : List Text) : NoneTooLong lines isRead ↔
      ∀ entry ∈ (numbered lines).filter (fun entry => p entry.2), ¬SpellsLongStatus entry.1 := by
  constructor
  · rintro none ⟨line, number⟩ member
    obtain ⟨listed, read⟩ := List.mem_filter.mp member
    exact none number line ((same number).mp read) (mem_numbered_iff.mp listed)
  · intro none number line read found
    exact none (line, number) (List.mem_filter.mpr ⟨mem_numbered_iff.mpr found, (same number).mpr read⟩)

theorem Field.exists_ofBlock_iff_noneTooLong (block : Block) (lines : List Text) :
    (∃ fields, ofBlock block lines = .ok fields) ↔
      NoneTooLong lines fun number => block.contains number = true := by
  rw [exists_ofBlock_iff, noneTooLong_iff fun _ => Iff.rfl]
  simp only [longStatus_iff]
  rfl

theorem Note.exists_ofLines_iff_noneTooLong (marker : Text) (lines : List Text) :
    (∃ notes, ofLines marker lines = .ok notes) ↔ NoneTooLong lines (AfterMarker marker lines) := by
  have readable := exists_readAll_iff (f := fun entry : Text × Nat => Field.ofLine entry.1 entry.2)
    (linesAfterMarker marker lines)
  simp only [Field.exists_ofLine_iff, longStatus_iff] at readable
  rw [noneTooLong_iff fun _ => decide_eq_true_iff]
  refine Iff.trans ?_ readable
  rw [← fields_ofLines]
  cases ofLines marker lines <;> simp [Except.map]

theorem exists_highlight_iff (marker : Text) (lines : List Text) :
    (∃ spans, highlight marker lines = .ok spans) ↔ ∃ notes, Note.ofLines marker lines = .ok notes := by
  unfold highlight
  cases Note.ofLines marker lines <;> simp [bind, Except.bind, pure, Except.pure]

/-- The lines of a block are lines of the document. -/
theorem Block.bounds_of_mem {marker : Text} {lines : List Text} {block : Block}
    (member : block ∈ ofLines marker lines) :
    1 ≤ block.first ∧ block.first ≤ block.last ∧ block.last ≤ lines.length := by
  obtain ⟨first, last, rfl, is⟩ := (mem_ofLines_iff marker lines block).mp member
  have := is.positive
  have := is.ordered
  have := is.inside
  simp only
  omega

/-- There is a fold for each block of more than one line. -/
theorem Fold.mem_ofLines_iff {marker : Text} {lines : List Text} {fold : Fold} :
    fold ∈ ofLines marker lines ↔ fold.block ∈ Block.ofLines marker lines ∧
      fold.hidden = fold.block.last - fold.block.first ∧ 0 < fold.hidden := by
  obtain ⟨block, hidden⟩ := fold
  simp only [ofLines, List.mem_filterMap]
  constructor
  · rintro ⟨other, member, made⟩
    split_ifs at made with flat
    obtain ⟨rfl, rfl⟩ : other = block ∧ other.last - other.first = hidden := by simpa using made
    exact ⟨member, rfl, by omega⟩
  · rintro ⟨member, rfl, positive⟩
    exact ⟨block, member, if_neg (by simpa using positive)⟩

/-- Reading succeeds just if none of the lines that are read spells too long a status code: for a
line, for the lines of any block, for those of a document, which are the ones at and after markers, and
for a file. Blocks and folds are found in any document; the blocks lie within it, and each field is read
from a line of its block. -/
theorem reading_succeeds_iff (line : Text) (number : Int) (block : Block) (lines : List Text)
    (name marker source : Text) :
    ((∃ field, Field.ofLine line number = .ok field) ↔ ¬SpellsLongStatus line) ∧
    ((∃ fields, Field.ofBlock block lines = .ok fields) ↔
      NoneTooLong lines fun number => block.contains number = true) ∧
    ((∃ notes, Note.ofLines marker lines = .ok notes) ↔ NoneTooLong lines (AfterMarker marker lines)) ∧
    ((∃ spans, highlight marker lines = .ok spans) ↔ NoneTooLong lines (AfterMarker marker lines)) ∧
    ((∃ file, GoFile.ofSource name marker source = .ok file) ↔
      NoneTooLong (source.splitOn '\n') (AfterMarker marker (source.splitOn '\n'))) ∧
    (∀ found ∈ Block.ofLines marker lines,
      1 ≤ found.first ∧ found.first ≤ found.last ∧ found.last ≤ lines.length) ∧
    (∀ fold, fold ∈ Fold.ofLines marker lines ↔ fold.block ∈ Block.ofLines marker lines ∧
      fold.hidden = fold.block.last - fold.block.first ∧ 0 < fold.hidden) ∧
    ∀ notes, Note.ofLines marker lines = .ok notes →
      ∀ note ∈ notes, note.block ∈ Block.ofLines marker lines ∧
        ∀ field ∈ note.fields, ∃ line, ∃ number : Nat, field.line = number ∧
          lineAt? lines number = some line ∧ note.block.contains number = true ∧
          Field.ofLine line number = .ok (some field) := by
  have document := Note.exists_ofLines_iff_noneTooLong marker lines
  refine ⟨?_, Field.exists_ofBlock_iff_noneTooLong block lines, document, ?_, ?_,
    fun found => Block.bounds_of_mem, fun fold => Fold.mem_ofLines_iff, fun notes read note member => ?_⟩
  · rw [Field.exists_ofLine_iff, longStatus_iff]
  · rw [exists_highlight_iff, document]
  · rw [GoFile.exists_ofSource_iff, ← Note.exists_ofLines_iff, Note.exists_ofLines_iff_noneTooLong]
  · refine ⟨(Note.ofBlock_of_mem read member).1, fun field inside => ?_⟩
    obtain ⟨line, number, found, contained, made⟩ := Note.exists_line_of_mem read member inside
    exact ⟨line, number, (Field.isOn_of_ofLine made).1, found, contained, made⟩

/-- An outcome whose status code has one digit too many. -/
def overlongLine : Text := "// @Success ".toList ++ List.replicate 4301 '9' ++ " {object} b.T".toList

/-- A file in which that line follows a marker. -/
def overlongSource : Text := "// godoc\n".toList ++ overlongLine

/-- A project with that file. -/
def overlongDisk : Disk where
  directories := [["p".toList]]
  files := [(["p".toList, "a.go".toList], overlongSource.map fun c => UInt8.ofNat c.toNat)]

/-- The line is not read, no document or file with it behind a marker, and no project with that file. -/
theorem overlongLine_fails :
    Field.ofLine overlongLine 1 = .error ⟨4301⟩ ∧
    Field.ofBlock ⟨-1, 7⟩ [overlongLine] = .error ⟨4301⟩ ∧
    Note.ofLines defaultMarker ["// godoc".toList, overlongLine] = .error ⟨4301⟩ ∧
    highlight defaultMarker ["// godoc".toList, overlongLine] = .error ⟨4301⟩ ∧
    GoFile.ofSource GoFile.unnamed defaultMarker overlongSource = .error ⟨4301⟩ ∧
    ((Indexer.start ⟨["p".toList], false⟩ [] [] (.ok (.int 10000)) defaultMarker).build
      overlongDisk).toOption.isNone = true := by
  refine ⟨by decide +kernel, by decide +kernel, by decide +kernel, by decide +kernel, by decide +kernel,
    by decide +kernel⟩

end ApiNotes
