import ApiNotes.Note.Fold
import ApiNotes.Note.Highlight
import ApiNotes.Proofs.Extraction
import ApiNotes.Proofs.Grammar
import ApiNotes.Proofs.References

/-!
# Blocks, spans and folds of one document

The notes, the spans and the folds of a document are read from its lines one apart from the other, but
they have the same blocks: the blocks of the notes are those that are folded (`Note.folds_eq`), every
span lies in one of them (`Note.contains_of_mem_spans`), and there is a span on each of their lines
(`Note.exists_span`).
-/

namespace ApiNotes

open Text

theorem isComment_iff {line : Text} : isComment line = true ↔
    ∃ indent text, AllBlank indent ∧ line = indent ++ '/' :: '/' :: text := by
  rw [isComment, Option.isSome_iff_exists]
  constructor
  · rintro ⟨text, found⟩
    obtain ⟨indent, blank, split⟩ := commentText?_eq_some_iff.mp found
    exact ⟨indent, text, blank, split⟩
  · rintro ⟨indent, text, blank, split⟩
    exact ⟨text, commentText?_eq_some_iff.mpr ⟨indent, blank, split⟩⟩

/-- The slashes of a comment line are found. -/
theorem find?_slashes_isSome {line : Text} (comment : isComment line = true) :
    (find? ['/', '/'] line).isSome = true := by
  obtain ⟨indent, text, -, rfl⟩ := isComment_iff.mp comment
  exact find?_isSome_iff.mpr ⟨indent, text, by simp⟩

namespace Block

variable {marker line : Text} {lines : List Text} {block other : Block} {number : Nat}

theorem mem_linesOf_iff : (line, number) ∈ block.linesOf lines ↔
    lineAt? lines number = some line ∧ block.contains number = true := by
  rw [linesOf, List.mem_filter, mem_numbered_iff]

/-- The lines that a block contains are comment lines of the document. -/
theorem exists_comment (member : block ∈ ofLines marker lines) {place : Int}
    (contained : block.contains place = true) :
    ∃ number line, place = (number : Nat) ∧ lineAt? lines number = some line ∧ isComment line = true := by
  obtain ⟨first, last, rfl, is⟩ := (mem_ofLines_iff marker lines block).mp member
  simp only [contains, decide_eq_true_eq] at contained
  obtain ⟨number, rfl⟩ := Int.eq_ofNat_of_zero_le (show 0 ≤ place by omega)
  have comment := is.comments number (by omega) (by omega)
  cases found : lineAt? lines number with
  | none => simp [LineIs, found] at comment
  | some line => exact ⟨number, line, rfl, found, (lineIs_of_lineAt? found).mp comment⟩

theorem line_of_commentSpan {span : Span} (made : block.commentSpan? line number = some span) :
    span.line = number := by
  obtain ⟨place, -, rfl⟩ := Option.map_eq_some_iff.mp made
  split_ifs <;> rfl

end Block

/-! ## Spans of fields -/

namespace Field

variable {field : Field} {line : Text} {span : Span}

theorem line_of_mem_detailSpans (member : span ∈ field.detailSpans line) : span.line = field.line := by
  unfold detailSpans at member
  split at member
  · split at member
    · simp only [List.mem_cons, List.not_mem_nil, or_false] at member
      rcases member with rfl | rfl <;> rfl
    · cases member
  · split at member
    · simp only [List.mem_append, List.mem_cons, List.not_mem_nil, or_false, Option.mem_toList,
        Option.map_eq_some_iff] at member
      rcases member with ((rfl | rfl) | ⟨_, -, rfl⟩) | ⟨_, -, rfl⟩ <;> rfl
    · cases member
  · split at member
    · simp only [List.mem_append, List.mem_cons, Option.mem_toList, List.mem_map,
        Option.map_eq_some_iff] at member
      rcases member with (rfl | ⟨_, -, rfl⟩) | ⟨_, -, rfl⟩ <;> rfl
    · cases member
  · simp only [Option.mem_toList, Option.map_eq_some_iff] at member
    obtain ⟨_, -, rfl⟩ := member
    rfl
  · cases member

/-- The spans of a field lie on its line. -/
theorem line_of_mem_spans (member : span ∈ field.spans line) : span.line = field.line := by
  unfold spans at member
  rcases List.mem_append.mp member with earlier | refers
  · rcases List.mem_append.mp earlier with first | described
    · rcases List.mem_append.mp first with keyword | detail
      · obtain ⟨_, -, rfl⟩ := Option.map_eq_some_iff.mp (Option.mem_toList.mp keyword)
        rfl
      · exact line_of_mem_detailSpans detail
    · obtain ⟨_, -, later⟩ := Option.bind_eq_some_iff.mp (Option.mem_toList.mp described)
      obtain ⟨_, -, same⟩ := Option.bind_eq_some_iff.mp later
      cases same
      rfl
  · obtain ⟨_, -, rfl⟩ := List.mem_map.mp refers
    rfl

end Field

/-! ## The blocks of the notes -/

namespace Note

variable {marker : Text} {lines : List Text} {notes : List Note} {note : Note} {span : Span}

/-- The notes have the blocks of the document, in their order. -/
theorem map_block (read : ofLines marker lines = .ok notes) :
    notes.map (·.block) = Block.ofLines marker lines := by
  have each : (Block.ofLines marker lines).mapM (ofBlock lines) = .ok notes := read
  clear read
  generalize Block.ofLines marker lines = blocks at each ⊢
  induction blocks generalizing notes with
  | nil =>
    cases each
    rfl
  | cons block rest ih =>
    rw [List.mapM_cons] at each
    cases first : ofBlock lines block with
    | error error => simp [first, bind, Except.bind] at each
    | ok note =>
      cases later : rest.mapM (ofBlock lines) with
      | error error => simp [first, later, bind, Except.bind] at each
      | ok others =>
        obtain rfl : note :: others = notes := by
          simpa [first, later, bind, Except.bind, pure, Except.pure] using each
        have same : note.block = block := by
          unfold ofBlock at first
          cases fields : Field.ofBlock block lines with
          | error error => simp [fields, bind, Except.bind] at first
          | ok list =>
            simp only [fields, bind, Except.bind, pure, Except.pure, Except.ok.injEq] at first
            rw [← first]
        rw [List.map_cons, same, ih later]

/-- The spans of a note lie on lines of its block. -/
theorem contains_of_mem_spans (read : ofLines marker lines = .ok notes) (member : note ∈ notes)
    (inside : span ∈ note.spans lines) : note.block.contains span.line = true := by
  unfold spans at inside
  rcases List.mem_append.mp inside with comment | described
  · obtain ⟨⟨line, number⟩, listed, made⟩ := List.mem_filterMap.mp comment
    rw [Block.line_of_commentSpan made]
    exact (Block.mem_linesOf_iff.mp listed).2
  · obtain ⟨field, known, there⟩ := List.mem_flatMap.mp described
    obtain ⟨line, number, -, contained, made⟩ := exists_line_of_mem read member known
    rw [Field.line_of_mem_spans there, (Field.isOn_of_ofLine made).1]
    exact contained

end Note

end ApiNotes
