import ApiNotes.Go.File
import Mathlib.Data.List.Basic

/-!
# Status codes of too many digits

The only line on which reading fails is a response whose status code has more digits than a
number may have (`Field.exists_ofLine_iff`). So a document can be read if no line of its blocks
is one (`Note.exists_ofLines_iff`), and a file if none of its lines is.
-/

namespace ApiNotes

/-! ## Reading all items of a list -/

section

variable {α β ε : Type} {f : α → Except ε β}

theorem exists_of_mapM_ok {items : List α} {results : List β} (read : items.mapM f = .ok results) :
    (∀ item ∈ items, ∃ result ∈ results, f item = .ok result) ∧
      ∀ result ∈ results, ∃ item ∈ items, f item = .ok result := by
  induction items generalizing results with
  | nil =>
    obtain rfl : results = [] := by simpa [pure, Except.pure] using read.symm
    simp
  | cons item rest ih =>
    rw [List.mapM_cons] at read
    cases first : f item with
    | error error => simp [first, bind, Except.bind] at read
    | ok result =>
      cases later : rest.mapM f with
      | error error => simp [first, later, bind, Except.bind] at read
      | ok others =>
        obtain rfl : results = result :: others := by
          simpa [first, later, bind, Except.bind, pure, Except.pure] using read.symm
        obtain ⟨down, back⟩ := ih later
        refine ⟨fun other member => ?_, fun other member => ?_⟩
        · rcases List.mem_cons.mp member with rfl | inside
          · exact ⟨result, by simp, first⟩
          · obtain ⟨found, place, equal⟩ := down other inside
            exact ⟨found, by simp [place], equal⟩
        · rcases List.mem_cons.mp member with rfl | inside
          · exact ⟨item, by simp, first⟩
          · obtain ⟨source, place, equal⟩ := back other inside
            exact ⟨source, by simp [place], equal⟩

theorem exists_mapM_iff (items : List α) :
    (∃ results, items.mapM f = .ok results) ↔ ∀ item ∈ items, ∃ result, f item = .ok result := by
  constructor
  · rintro ⟨results, read⟩ item member
    obtain ⟨result, -, first⟩ := (exists_of_mapM_ok read).1 item member
    exact ⟨result, first⟩
  · intro readable
    induction items with
    | nil => exact ⟨[], rfl⟩
    | cons item rest ih =>
      obtain ⟨result, first⟩ := readable item (by simp)
      obtain ⟨results, later⟩ := ih fun other member => readable other (by simp [member])
      refine ⟨result :: results, ?_⟩
      simp [List.mapM_cons, first, later, bind, Except.bind, pure, Except.pure]

end

/-- A response whose status code has more digits than a number may have. -/
def LongStatus (line : Text) : Prop :=
  ∃ word rest outcome digits object more, keywordAndRest? line = some (word, rest) ∧
    Keyword.ofText? word = some (.outcome outcome) ∧
    responseParts? rest = some (digits, object, more) ∧ Text.digitLimit < digits.length

namespace Field

theorem exists_ofResponse_iff (outcome : Outcome) (line : Text) (number : Int) (rest : Text) :
    (∃ field, ofResponse outcome line number rest = .ok field) ↔
      ¬∃ digits object more, responseParts? rest = some (digits, object, more) ∧
        Text.digitLimit < digits.length := by
  unfold ofResponse
  cases parts : responseParts? rest with
  | none => simp
  | some found =>
    obtain ⟨digits, object, more⟩ := found
    by_cases long : Text.digitLimit < digits.length <;>
      simp [statusOf, long, bind, Except.bind, pure, Except.pure]

/-- A line yields a field or none unless it is a response with too long a status code. -/
theorem exists_ofLine_iff (line : Text) (number : Int) :
    (∃ field, ofLine line number = .ok field) ↔ ¬LongStatus line := by
  unfold ofLine LongStatus
  cases read : keywordAndRest? line with
  | none => simp
  | some found =>
    obtain ⟨word, rest⟩ := found
    cases known : Keyword.ofText? word with
    | none => simp [known]
    | some keyword =>
      cases keyword with
      | outcome outcome =>
        have response := exists_ofResponse_iff outcome line number rest
        simpa [known] using response
      | param | router | security | tag _ => simp [known]

theorem exists_ofBlock_iff (block : Block) (lines : List Text) :
    (∃ fields, ofBlock block lines = .ok fields) ↔
      ∀ entry ∈ block.linesOf lines, ¬LongStatus entry.1 := by
  have each := exists_mapM_iff (f := fun entry : Text × Nat => ofLine entry.1 entry.2)
    (block.linesOf lines)
  simp only [exists_ofLine_iff] at each
  rw [← each]
  unfold ofBlock
  constructor
  · rintro ⟨fields, read⟩
    cases gathered : (block.linesOf lines).mapM fun entry => ofLine entry.1 entry.2 with
    | error error => simp [gathered, bind, Except.bind] at read
    | ok found => exact ⟨found, rfl⟩
  · rintro ⟨found, gathered⟩
    exact ⟨found.filterMap id, by simp [gathered, bind, Except.bind, pure, Except.pure]⟩

end Field

/-- A document can be read unless a line in one of its blocks has too long a status code. -/
theorem Note.exists_ofLines_iff (marker : Text) (lines : List Text) :
    (∃ notes, ofLines marker lines = .ok notes) ↔
      ∀ block ∈ Block.ofLines marker lines, ∀ entry ∈ block.linesOf lines, ¬LongStatus entry.1 := by
  unfold ofLines
  rw [exists_mapM_iff]
  refine forall₂_congr fun block _ => ?_
  rw [← Field.exists_ofBlock_iff]
  cases Field.ofBlock block lines <;> simp [bind, Except.bind, pure, Except.pure]

theorem GoFile.exists_ofSource_iff (name marker source : Text) :
    (∃ file, ofSource name marker source = .ok file) ↔
      ∀ block ∈ Block.ofLines marker (source.splitOn '\n'),
        ∀ entry ∈ block.linesOf (source.splitOn '\n'), ¬LongStatus entry.1 := by
  rw [← Note.exists_ofLines_iff]
  unfold ofSource
  cases notes : Note.ofLines marker (source.splitOn '\n') <;>
    simp [notes, bind, Except.bind, pure, Except.pure]

instance (line : Text) : Decidable (LongStatus line) :=
  decidable_of_iff (¬(Field.ofLine line 0).toOption.isSome) (by
    rw [← not_iff_not, not_not, ← Field.exists_ofLine_iff line 0]
    cases Field.ofLine line 0 <;> simp [Except.toOption])

/-- A text none of whose lines has too long a status code. -/
def Text.IsReadable (text : Text) : Prop := ∀ line ∈ text.splitOn '\n', ¬LongStatus line

instance (text : Text) : Decidable text.IsReadable :=
  inferInstanceAs (Decidable (∀ line ∈ text.splitOn '\n', ¬LongStatus line))

theorem GoFile.exists_ofSource_of_isReadable (name marker : Text) {source : Text}
    (readable : source.IsReadable) : ∃ file, ofSource name marker source = .ok file := by
  refine (exists_ofSource_iff name marker source).mpr fun block _ entry member => ?_
  obtain ⟨inside, -⟩ := List.mem_filter.mp member
  obtain ⟨-, -, same⟩ := List.mem_zipIdx inside
  exact same ▸ readable _ (List.getElem_mem _)

end ApiNotes
