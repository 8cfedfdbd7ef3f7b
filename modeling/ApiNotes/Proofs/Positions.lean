import ApiNotes.Note.Nearest
import ApiNotes.Proofs.Extraction

/-!
# The reference at a position

What is found at a position is one of the references of its row (`Note.mem_of_nearestFrom`), and the one
that the column is in, where it is in one alone (`Note.nearestOf_of_covers`). The references of the row of
an annotation are those of its field (`Note.mem_referencesAt_iff_of_ofLine`).
-/

namespace ApiNotes

namespace Note

/-- The references of a row are references of the notes, and on that row. -/
theorem mem_referencesAt_iff {notes : List Note} {row : Int} {reference : Reference} :
    reference ∈ referencesAt notes row ↔
      ∃ note ∈ notes, note.block.contains row = true ∧ reference ∈ note.references ∧
        reference.line = row := by
  simp only [referencesAt, List.mem_flatMap, List.mem_filter, decide_eq_true_eq, and_assoc]

end Note

theorem Reference.distance_eq_zero_iff {reference : Reference} {column : Int} :
    reference.distance column = 0 ↔ reference.start ≤ column ∧ column < reference.stop := by
  simp only [Reference.distance, Int.cast_id]
  split_ifs <;> omega

namespace Note

/-- A column in one reference alone finds it, however far the nearest one may be. -/
theorem nearestOf_of_covers {references : List Reference} {reference : Reference} {column : Int}
    (member : reference ∈ references) (inside : reference.start ≤ column ∧ column < reference.stop)
    (only : ∀ other ∈ references, other.start ≤ column ∧ column < other.stop → other = reference)
    (reach : Number) : nearestOf references (Number.int column) reach = some reference := by
  unfold nearestOf
  generalize reach + ((1 : Int) : Number) = bound
  generalize (none : Option Reference) = closest
  induction references generalizing bound closest with
  | nil => cases member
  | cons first later ih =>
    simp only [nearestFrom, Reference.distance_int, IntCast.intCast, Int.cast, Number.int_beq_int,
      beq_iff_eq, Reference.distance_eq_zero_iff]
    by_cases here : first.start ≤ column ∧ column < first.stop
    · rw [if_pos here, only first List.mem_cons_self here]
    · have there : reference ∈ later := by
        rcases List.mem_cons.mp member with rfl | there
        · exact absurd inside here
        · exact there
      have rest := ih there fun other member => only other (List.mem_cons_of_mem _ member)
      rw [if_neg here]
      split_ifs
      · exact rest _ _
      · exact rest _ _

/-- The references of the row of an annotation are those of its field. -/
theorem mem_referencesAt_iff_of_ofLine {marker line : Text} {lines : List Text} {notes : List Note}
    {number : Nat} {field : Field} {reference : Reference} (read : ofLines marker lines = .ok notes)
    (after : AfterMarker marker lines number) (found : lineAt? lines number = some line)
    (made : Field.ofLine line number = .ok (some field)) :
    reference ∈ referencesAt notes number ↔ reference ∈ field.references := by
  obtain ⟨placed, places⟩ := Field.isOn_of_ofLine made
  rw [mem_referencesAt_iff]
  constructor
  · rintro ⟨note, member, -, known, row⟩
    obtain ⟨other, inside, refers⟩ := List.mem_flatMap.mp known
    obtain ⟨text, place, there, -, read⟩ := exists_line_of_mem read member inside
    obtain rfl : place = number :=
      Int.natCast_inj.mp (((Field.isOn_of_ofLine read).2 reference refers).symm.trans row)
    obtain rfl := Option.some.inj (found.symm.trans there)
    obtain rfl := Option.some.inj (Except.ok.inj (made.symm.trans read))
    exact refers
  · intro known
    obtain ⟨note, member, inside⟩ := exists_note_of_ofLine read after found made
    obtain ⟨text, place, -, contained, again⟩ := exists_line_of_mem read member inside
    rw [← (Field.isOn_of_ofLine again).1, placed] at contained
    exact ⟨note, member, contained, List.mem_flatMap.mpr ⟨field, inside, known⟩, places reference known⟩

end Note

end ApiNotes
