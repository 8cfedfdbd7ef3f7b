import ApiNotes.Proofs.Proximity
import ApiNotes.Proofs.Regions

/-!
# References at their own places

A name in the searched part of a line is referred to where it first occurs on the line, and that need not be
where it stands in that part: a name that occurs in an earlier name, as `models.User` does in
`models.UserList`, is referred to inside that one. The references of a line are apart from each other and each
column of a name finds a reference to it, just if no name of the searched part occurs on the line before its
own place (`Field.findsNames_iff`).
-/

namespace ApiNotes

open Text

/-- Two references without a common column. -/
def Reference.Apart (a b : Reference) : Prop := a.stop ≤ b.start ∨ b.stop ≤ a.start

instance (a b : Reference) : Decidable (a.Apart b) := inferInstanceAs (Decidable (_ ∨ _))

/-- No name of the searched part of a line occurs on the line before its own place. -/
def NamesFirstOccur (line : Text) : Prop :=
  ∀ sighting ∈ sightings (searchedRegion line), ∀ place < searchedColumn line + sighting.place,
    ¬sighting.name <+: line.drop place

/-- Notes in which the references of the row of a field are those of the field. -/
def Note.Shows (notes : List Note) (field : Field) : Prop :=
  ∀ reference, reference ∈ referencesAt notes field.line ↔ reference ∈ field.references

/-- Wherever the references of a field are looked at, each column of a name in the searched part of its line
finds a reference to that name, whatever the reach. -/
def Field.FindsNames (field : Field) (line : Text) : Prop :=
  ∀ notes, Note.Shows notes field → ∀ sighting ∈ sightings (searchedRegion line), ∀ column : Int,
    searchedColumn line + sighting.place ≤ column → column < searchedColumn line + sighting.stop →
      ∀ reach : Number, ∃ reference,
        Note.nearest? notes field.line (Number.int column) reach = some reference ∧
          reference.name = sighting.name

section

variable {line : Text} {number : Int} {field : Field}

/-! ## Where the references of a field are looked at -/

theorem Note.shows_of_ofLines {marker : Text} {lines : List Text} {notes : List Note} {row : Nat}
    (read : ofLines marker lines = .ok notes) (after : AfterMarker marker lines row)
    (found : lineAt? lines row = some line) (made : Field.ofLine line row = .ok (some field)) :
    Shows notes field := by
  intro reference
  rw [(Field.isOn_of_ofLine made).1]
  exact mem_referencesAt_iff_of_ofLine read after found made

theorem Note.shows_alone (on : field.IsOn number) : Shows [⟨⟨number, number⟩, [field]⟩] field := by
  obtain ⟨placed, places⟩ := on
  intro reference
  rw [mem_referencesAt_iff, placed]
  constructor
  · rintro ⟨note, member, -, known, -⟩
    obtain rfl := List.mem_singleton.mp member
    simpa [references] using known
  · intro known
    refine ⟨_, List.mem_singleton_self _, ?_, ?_, places reference known⟩
    · simp [Block.contains]
    · simpa [references] using known

/-! ## References that are apart -/

instance : Std.Symm Reference.Apart := ⟨fun _ _ => Or.symm⟩

/-- A column belongs to one reference at most, if all are apart. -/
theorem eq_of_apart {references : List Reference} (apart : references.Pairwise Reference.Apart)
    {a b : Reference} (first : a ∈ references) (second : b ∈ references) {column : Int}
    (here : a.start ≤ column ∧ column < a.stop) (there : b.start ≤ column ∧ column < b.stop) : a = b := by
  by_contra other
  have between := apart.forall first second other
  unfold Reference.Apart at between
  omega

theorem Reference.Denotes.stop_eq {reference : Reference} (denotes : reference.Denotes line) :
    reference.stop = reference.start + reference.name.length := by
  obtain ⟨lower, filled, upper⟩ := denotes.within
  have size := congrArg List.length denotes.spells
  simp only [List.length_drop, List.length_take] at size
  omega

/-! ## References at their own places -/

theorem isPrefix_of_mem_sightings {sighting : Sighting}
    (member : sighting ∈ sightings (searchedRegion line)) :
    sighting.name <+: line.drop (searchedColumn line + sighting.place) := by
  have stands := ((leftmostNames_sightings _).stands sighting member).2.isPrefix
  have onward := (searchedRegion_isPrefix line).drop sighting.place
  rw [List.drop_drop] at onward
  exact stands.trans onward

/-- The reference to a name where it stands in the searched part of a line. -/
def Text.Sighting.ownReference (origin : Origin) (line : Text) (number : Int) (sighting : Sighting) : Reference :=
  let start := searchedColumn line + sighting.place
  { line := number, start := start, stop := start + sighting.name.length, name := sighting.name,
    level := nestingLevel line start, origin := origin }

theorem referencesIn_eq_map_ownReference (first : NamesFirstOccur line) (origin : Origin) (number : Int) :
    referencesIn origin line number (searchedRegion line) =
      (sightings (searchedRegion line)).map (·.ownReference origin line number) := by
  rw [referencesIn, ← map_name_sightings, List.filterMap_map, ← List.filterMap_eq_map]
  refine List.filterMap_congr fun sighting member => ?_
  have found : find? sighting.name line = some (searchedColumn line + sighting.place) :=
    find?_eq_some_iff.mpr ⟨isPrefix_of_mem_sightings member, first sighting member⟩
  simp [found, Sighting.ownReference]

theorem apart_map_ownReference (origin : Origin) (line : Text) (number : Int) :
    ((sightings (searchedRegion line)).map (·.ownReference origin line number)).Pairwise Reference.Apart := by
  refine List.pairwise_map.mpr ((leftmostNames_sightings _).apart.imp fun {a b} before => .inl ?_)
  simp only [Sighting.stop] at before
  simp only [Sighting.ownReference]
  omega

/-- A name that is found from its last column with no reach at all does not occur before its place. -/
theorem Field.FindsNames.namesFirstOccur (read : ofLine line number = .ok (some field))
    (finds : field.FindsNames line) : NamesFirstOccur line := by
  intro sighting member place earlier
  have on := isOn_of_ofLine read
  have nonempty := ((leftmostNames_sightings _).stands sighting member).2.ne_nil
  have positive := List.length_pos_iff.mpr nonempty
  obtain ⟨reference, found, same⟩ := finds _ (Note.shows_alone on) sighting member
    (searchedColumn line + sighting.stop - 1) (by unfold Sighting.stop; omega) (by omega) (Number.int (-1))
  -- Without any reach the column is in what is found, which then ends where the name does or later; and an
  -- earlier occurrence of the name would have made it begin, and so end, before that.
  obtain ⟨nearest, near⟩ := Note.nearest?_eq_some_iff_isNearest.mp found
  have inside := Reference.distance_nonneg reference (searchedColumn line + sighting.stop - 1)
  obtain ⟨-, covers⟩ := Reference.distance_eq_zero_iff.mp
    (show reference.distance ((searchedColumn line + sighting.stop - 1 : Int)) = 0 by omega)
  obtain ⟨denotes, -, -⟩ := denotes_of_mem read ((Note.shows_alone on reference).mp nearest.mem)
  have length := denotes.stop_eq
  rw [same] at length
  rw [← same]
  refine denotes.first place ?_
  unfold Sighting.stop at covers
  omega

/-- The references of a line have no column in common, and each column of a name finds a reference to that
name, just if no name of the searched part occurs on the line before its own place. -/
theorem Field.findsNames_iff (read : ofLine line number = .ok (some field)) :
    (field.references.Pairwise Reference.Apart ∧ field.FindsNames line) ↔ NamesFirstOccur line := by
  constructor
  · rintro ⟨-, finds⟩
    exact finds.namesFirstOccur read
  · intro first
    obtain ⟨origin, refers, -⟩ := exists_references_eq read
    rw [referencesIn_eq_map_ownReference first] at refers
    have apart : field.references.Pairwise Reference.Apart :=
      refers ▸ apart_map_ownReference origin line number
    refine ⟨apart, fun notes shows sighting member column lower upper reach => ?_⟩
    have own : sighting.ownReference origin line number ∈ field.references :=
      refers ▸ List.mem_map_of_mem member
    have covers : (sighting.ownReference origin line number).start ≤ column ∧
        column < (sighting.ownReference origin line number).stop := by
      simp only [Sighting.stop] at upper
      simp only [Sighting.ownReference]
      omega
    refine ⟨sighting.ownReference origin line number, ?_, rfl⟩
    refine Note.nearestOf_of_covers ((shows _).mpr own) covers (fun other known there => ?_) reach
    exact eq_of_apart apart ((shows other).mp known) own there covers

/-- An outcome with a generic model. -/
def pageLine : Text := "// @Success 200 \x7bobject\x7d responses.Page[models.Item] \"of models.List\"".toList

/-- What is read from it as the second line of a document. -/
def pageField : Field :=
  { line := 2, detail := .response .success 200 "object".toList,
    value := "200 \x7bobject\x7d responses.Page[models.Item]".toList,
    description := some "of models.List".toList,
    references := [⟨2, 25, 39, "responses.Page".toList, 0, .response⟩,
      ⟨2, 40, 51, "models.Item".toList, 1, .response⟩] }

/-- Neither name occurs before its place, so each column of the second one finds it in the document. -/
theorem Field.findsNames_iff_small :
    ofLine pageLine 2 = .ok (some pageField) ∧ pageField.references.Pairwise Reference.Apart ∧
    ∀ column : Int, 40 ≤ column → column < 51 → ∀ reach : Number, ∃ reference,
      Note.nearest? [⟨⟨1, 2⟩, [pageField]⟩] 2 (Number.int column) reach = some reference ∧
        reference.name = "models.Item".toList := by
  have read : ofLine pageLine 2 = .ok (some pageField) := by decide +kernel
  have first : NamesFirstOccur pageLine := by
    unfold NamesFirstOccur
    decide +kernel
  obtain ⟨apart, finds⟩ := (findsNames_iff read).mpr first
  have notes : Note.ofLines defaultMarker ["// godoc".toList, pageLine] = .ok [⟨⟨1, 2⟩, [pageField]⟩] := by
    decide +kernel
  have after : AfterMarker defaultMarker ["// godoc".toList, pageLine] 2 := by decide +kernel
  have shows := Note.shows_of_ofLines notes after rfl read
  have column : searchedColumn pageLine = 25 := by decide +kernel
  have known : ⟨15, "models.Item".toList⟩ ∈ sightings (searchedRegion pageLine) := by decide +kernel
  refine ⟨read, apart, fun place lower upper reach => ?_⟩
  refine finds _ shows _ known place ?_ ?_ reach
  · rw [column]
    exact lower
  · rw [column]
    exact upper

/-- A list of the type of its items, whose name begins the name of the list. -/
def listLine : Text := "// @Success 200 \x7bobject\x7d models.UserList[models.User]".toList

def listField : Field :=
  { line := 1, detail := .response .success 200 "object".toList,
    value := "200 \x7bobject\x7d models.UserList[models.User]".toList, description := none,
    references := [⟨1, 25, 40, "models.UserList".toList, 0, .response⟩,
      ⟨1, 25, 36, "models.User".toList, 0, .response⟩] }

/-- The two names are different, but both references begin with the first one; so a column of the second
name, which stands in the columns from 41 up to 52, finds the first. -/
theorem Field.references_overlap :
    ofLine listLine 1 = .ok (some listField) ∧ searchedColumn listLine = 25 ∧
    sightings (searchedRegion listLine) = [⟨0, "models.UserList".toList⟩, ⟨16, "models.User".toList⟩] ∧
    ¬listField.references.Pairwise Reference.Apart ∧
    Note.nearest? [⟨⟨1, 1⟩, [listField]⟩] 1 (Number.int 41) (Number.int Note.defaultReach) =
      some ⟨1, 25, 40, "models.UserList".toList, 0, .response⟩ := by
  refine ⟨?_, ?_, ?_, ?_, ?_⟩
  · decide +kernel
  · decide +kernel
  · decide +kernel
  · decide +kernel
  · decide +kernel

end

end ApiNotes
