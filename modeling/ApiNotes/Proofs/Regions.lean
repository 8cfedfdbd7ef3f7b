import ApiNotes.Proofs.Extraction
import ApiNotes.Proofs.Grammar
import ApiNotes.Proofs.Sightings

/-!
# The searched part of a line

References are looked for in one part of a line, the model of an outcome or the value of a parameter. It is a
piece of the line that begins at `searchedColumn` (`searchedRegion_isPrefix`), so each name in it is found on
the line. The references of a field are the names of that part, in order, each at the first place of the line
where it occurs (`Field.references_denote`).
-/

namespace ApiNotes

open Text

/-- Where references on the side of an operation come from: only outcomes and parameters have any. -/
def Detail.origin? : Detail → Option Origin
  | .response .. => some .response
  | .param .. => some .request
  | _ => none

/-- The end of an annotation line that begins with what is searched for references. -/
def searchedFrom? (line : Text) : Option Text := do
  let (word, rest) ← keywordAndRest? line
  match Keyword.ofText? word with
  | some (.outcome _) =>
    let (_, _, more) ← responseParts? rest
    some (trim more)
  | some .param => some rest
  | _ => none

/-- The part of a line that is searched for references: the end without its description. -/
def searchedRegion (line : Text) : Text :=
  match searchedFrom? line with
  | some onward => (splitDescription onward).1
  | none => []

/-- The column at which that part begins. -/
def searchedColumn (line : Text) : Nat :=
  match searchedFrom? line with
  | some onward => (trimRight line).length - onward.length
  | none => line.length

section

variable {line text onward more : Text} {number : Int} {field : Field}

/-! ## The part as a piece of the line -/

theorem Text.EndsFirm.of_isSuffix (firm : EndsFirm text) (suffix : more <:+ text) : EndsFirm more := by
  obtain ⟨front, rfl⟩ := suffix
  intro c last
  have nonempty : more ≠ [] := List.ne_nil_of_mem (List.mem_of_getLast? last)
  refine firm c ?_
  rwa [getLast?_append_of_ne_nil nonempty]

theorem Text.trim_isSuffix (firm : EndsFirm text) (suffix : more <:+ text) : trim more <:+ text := by
  have inner : trimLeft more <:+ text := (List.dropWhile_suffix isBlank).trans suffix
  rwa [trim, (firm.of_isSuffix inner).trimRight]

/-- The value without the description is where the text begins. -/
theorem splitDescription_isPrefix (firm : StartsFirm text) : (splitDescription text).1 <+: text := by
  unfold splitDescription
  split
  · rename_i lead after cut
    obtain ⟨-, ends, gap, -, -, rfl⟩ := cutAtQuote?_eq_some_iff.mp cut
    have starts : StartsFirm lead := fun c first => firm c (List.mem_head?_append_of_mem_head? first)
    rw [trim_eq_self_iff.mpr ⟨starts, ends⟩]
    exact List.prefix_append _ _
  · split
    · exact List.nil_prefix
    · obtain ⟨gap, -, split⟩ := exists_trimRight text
      rw [trim, firm.trimLeft]
      exact ⟨gap, split.symm⟩

/-- The rest of a line is its end, blanks aside. -/
theorem isSuffix_of_keywordAndRest? {word rest : Text} (read : keywordAndRest? line = some (word, rest)) :
    StartsFirm rest ∧ EndsFirm rest ∧ rest <:+ trimRight line := by
  obtain ⟨-, starts, ends, indent, inset, gap, tail, -, -, -, tailBlank, -, -, rfl⟩ :=
    keywordAndRest?_eq_some_iff.mp read
  refine ⟨starts, ends, ?_⟩
  by_cases empty : rest = []
  · simp [empty]
  · refine ⟨indent ++ '/' :: '/' :: (inset ++ '@' :: (word ++ gap)), ?_⟩
    have firm := ends.append empty (indent ++ '/' :: '/' :: (inset ++ '@' :: (word ++ gap)))
    have cut := trimRight_append tailBlank (indent ++ '/' :: '/' :: (inset ++ '@' :: (word ++ gap)) ++ rest)
    rw [firm.trimRight] at cut
    simpa using cut.symm

/-- What is searched stands at the end of the line, and begins without a blank. -/
theorem isSuffix_of_searchedFrom? (found : searchedFrom? line = some onward) :
    StartsFirm onward ∧ onward <:+ trimRight line := by
  simp only [searchedFrom?, bind, Option.bind_eq_some_iff] at found
  obtain ⟨⟨word, rest⟩, read, found⟩ := found
  obtain ⟨starts, ends, suffix⟩ := isSuffix_of_keywordAndRest? read
  split at found
  · obtain ⟨⟨digits, object, more⟩, parts, same⟩ := Option.bind_eq_some_iff.mp found
    obtain rfl : trim more = onward := Option.some.inj same
    obtain ⟨-, -, -, -, gap, -, -, rfl⟩ := responseParts?_eq_some_iff.mp parts
    have after : more <:+ digits ++ (gap ++ '{' :: (object ++ '}' :: more)) :=
      ⟨digits ++ gap ++ '{' :: object ++ ['}'], by simp⟩
    refine ⟨?_, (trim_isSuffix ends after).trans suffix⟩
    exact (trim_eq_self_iff.mp (trim_trim more)).1
  · obtain rfl : rest = onward := Option.some.inj found
    exact ⟨starts, suffix⟩
  · cases found

theorem searchedRegion_isPrefix (line : Text) : searchedRegion line <+: line.drop (searchedColumn line) := by
  unfold searchedRegion searchedColumn
  split
  · rename_i onward found
    obtain ⟨starts, lead, split⟩ := isSuffix_of_searchedFrom? found
    obtain ⟨gap, -, whole⟩ := exists_trimRight line
    have column : (trimRight line).length - onward.length = lead.length := by
      rw [← split, List.length_append]
      omega
    have there : line.drop lead.length = onward ++ gap := by
      rw [whole, ← split, List.append_assoc, List.drop_left]
    rw [column, there]
    exact (splitDescription_isPrefix starts).trans (List.prefix_append _ _)
  · exact List.nil_prefix

theorem searchedRegion_isInfix (line : Text) : searchedRegion line <:+: line :=
  (searchedRegion_isPrefix line).isInfix.trans (List.drop_suffix _ line).isInfix

/-! ## What is read of a line -/

/-- The field of a line is an outcome, a parameter, or nothing in which references are looked for. -/
theorem Field.cases_of_ofLine (read : ofLine line number = .ok (some field)) :
    (∃ outcome rest digits object more,
      keywordAndRest? line = some ((Keyword.outcome outcome).text, rest) ∧
      responseParts? rest = some (digits, object, more) ∧ searchedFrom? line = some (trim more) ∧
      field.detail.origin? = some .response ∧ field.value = (splitDescription rest).1 ∧
      field.references = referencesIn .response line number (searchedRegion line)) ∨
    (∃ rest, keywordAndRest? line = some (Keyword.param.text, rest) ∧ searchedFrom? line = some rest ∧
      field.detail.origin? = some .request ∧ field.value = (splitDescription rest).1 ∧
      field.references = referencesIn .request line number (searchedRegion line)) ∨
    (searchedFrom? line = none ∧ field.detail.origin? = none ∧ field.references = []) := by
  unfold ofLine at read
  split at read
  · simp at read
  · rename_i word rest parsed
    split at read
    · simp at read
    · rename_i outcome known
      obtain rfl := Keyword.ofText?_eq_some_iff.mp known
      unfold ofResponse at read
      split at read
      · simp at read
      · rename_i digits object more parts
        cases status : statusOf digits with
        | error error => simp [status, bind, Except.bind] at read
        | ok code =>
          have searched : searchedFrom? line = some (trim more) := by
            simp [searchedFrom?, parsed, Keyword.ofText?_text, parts]
          simp only [status, bind, Except.bind, pure, Except.pure] at read
          obtain rfl := Option.some.inj (Except.ok.inj read)
          refine .inl ⟨outcome, rest, digits, object, more, parsed, parts, searched, rfl, rfl, ?_⟩
          simp only [searchedRegion, searched]
    · rename_i known
      obtain rfl := Keyword.ofText?_eq_some_iff.mp known
      have searched : searchedFrom? line = some rest := by
        simp [searchedFrom?, parsed, Keyword.ofText?_text]
      have made := Except.ok.inj read
      unfold ofParam at made
      split at made
      rename_i value description split'
      split at made
      · obtain rfl := Option.some.inj made
        refine .inr (.inl ⟨rest, parsed, searched, rfl, by rw [split'], ?_⟩)
        simp only [searchedRegion, searched, split']
      · simp at made
    · rename_i known
      obtain ⟨_, -, rfl⟩ := Option.map_eq_some_iff.mp (Except.ok.inj read)
      exact .inr (.inr ⟨by simp [searchedFrom?, parsed, known], rfl, rfl⟩)
    · rename_i known
      obtain ⟨_, -, rfl⟩ := Option.map_eq_some_iff.mp (Except.ok.inj read)
      exact .inr (.inr ⟨by simp [searchedFrom?, parsed, known], rfl, rfl⟩)
    · rename_i name known
      obtain rfl := Option.some.inj (Except.ok.inj read)
      exact .inr (.inr ⟨by simp [searchedFrom?, parsed, known], rfl, rfl⟩)

/-! ## References as pieces of the line -/

/-- A reference has the columns of a piece of the line, its name, at the first place where that occurs; and
its level is the number of brackets that are open before it, none where more are closed than opened. -/
structure Reference.Denotes (reference : Reference) (line : Text) : Prop where
  within : 0 ≤ reference.start ∧ reference.start < reference.stop ∧ reference.stop ≤ line.length
  spells : (line.take reference.stop.toNat).drop reference.start.toNat = reference.name
  first : ∀ place : Nat, place < reference.start → ¬reference.name <+: line.drop place
  level : (reference.level : Int) = max 0 (((line.take reference.start.toNat).count '[' : Int) -
    (line.take reference.start.toNat).count ']')

theorem nestingLevel_eq (line : Text) (start : Nat) :
    (nestingLevel line start : Int) =
      max 0 (((line.take start).count '[' : Int) - (line.take start).count ']') := by
  have column : ¬(start : Int) < 0 := by omega
  simp only [nestingLevel, before, column, if_false, Int.toNat_natCast]
  omega

/-- A name that stands on the line is referred to where it is first found. -/
theorem denotes_of_find? {name : Text} {start : Nat} (nonempty : name ≠ [])
    (found : find? name line = some start) (number : Int) (origin : Origin) :
    Reference.Denotes ⟨number, start, start + name.length, name, nestingLevel line start, origin⟩ line := by
  obtain ⟨stands, first⟩ := find?_eq_some_iff.mp found
  have positive := List.length_pos_iff.mpr nonempty
  have fits := stands.length_le
  rw [List.length_drop] at fits
  constructor
  · simp only
    omega
  · have stop : ((start : Int) + name.length).toNat = start + name.length := by omega
    simp only [stop, Int.toNat_natCast, List.drop_take, Nat.add_sub_cancel_left]
    exact (List.prefix_iff_eq_take.mp stands).symm
  · exact fun place before => first place (by simpa using before)
  · simpa using nestingLevel_eq line start

theorem find?_of_mem_region {region name : Text} (inside : region <:+: line)
    (member : name ∈ qualifiedNames region) : ∃ start, find? name line = some start :=
  Option.isSome_iff_exists.mp (find?_isSome_iff.mpr ((isInfix_of_mem_qualifiedNames member).trans inside))

theorem map_name_referencesIn {region : Text} (inside : region <:+: line) (origin : Origin) (number : Int) :
    (referencesIn origin line number region).map (·.name) = qualifiedNames region := by
  rw [referencesIn, List.map_filterMap]
  conv_rhs => rw [← List.filterMap_some (l := qualifiedNames region)]
  -- The search for a name cannot fail, since the part it is taken from is itself on the line.
  refine List.filterMap_congr fun name member => ?_
  obtain ⟨start, found⟩ := find?_of_mem_region inside member
  simp [found]

theorem denotes_of_mem_referencesIn {origin : Origin} {region : Text} {reference : Reference}
    (member : reference ∈ referencesIn origin line number region) :
    reference.Denotes line ∧ reference.line = number ∧ reference.origin = origin := by
  simp only [referencesIn, List.mem_filterMap, Option.map_eq_some_iff, bind, Option.bind_eq_some_iff, pure,
    Option.some.injEq] at member
  obtain ⟨name, inside, _, ⟨start, found, rfl⟩, rfl⟩ := member
  rw [← map_name_sightings] at inside
  obtain ⟨sighting, known, rfl⟩ := List.mem_map.mp inside
  have named := ((leftmostNames_sightings region).stands sighting known).2
  exact ⟨denotes_of_find? named.ne_nil found number origin, rfl, rfl⟩

/-- The references of a field are looked for in the searched part of its line, and belong to its side. -/
theorem Field.exists_references_eq (read : ofLine line number = .ok (some field)) :
    ∃ origin, field.references = referencesIn origin line number (searchedRegion line) ∧
      (field.references = [] ∨ field.detail.origin? = some origin) := by
  rcases cases_of_ofLine read with ⟨-, -, -, -, -, -, -, -, side, -, refers⟩ | ⟨-, -, -, side, -, refers⟩ |
    ⟨unsearched, -, none⟩
  · exact ⟨.response, refers, .inr side⟩
  · exact ⟨.request, refers, .inr side⟩
  · have nothing : searchedRegion line = [] := by simp only [searchedRegion, unsearched]
    exact ⟨.response, by rw [none, nothing]; rfl, .inl none⟩

theorem Field.map_name_references (read : ofLine line number = .ok (some field)) :
    field.references.map (·.name) = qualifiedNames (searchedRegion line) := by
  obtain ⟨origin, refers, -⟩ := exists_references_eq read
  rw [refers, map_name_referencesIn (searchedRegion_isInfix line)]

theorem Field.denotes_of_mem (read : ofLine line number = .ok (some field)) {reference : Reference}
    (member : reference ∈ field.references) :
    reference.Denotes line ∧ reference.line = number ∧ field.detail.origin? = some reference.origin := by
  obtain ⟨origin, refers, side⟩ := exists_references_eq read
  obtain ⟨denotes, row, same⟩ := denotes_of_mem_referencesIn (refers ▸ member)
  have onSide := side.resolve_left (List.ne_nil_of_mem member)
  exact ⟨denotes, row, by rw [onSide, same]⟩

/-- Every reference of a field denotes text of its line. Its columns are those of its name, at the first
place where the name occurs, and its level counts the brackets that are open there; it has the number of the
line, and the side of an outcome or a parameter, which alone have references. The names referred to are,
one by one and in order, what a search from the left finds in the searched part, and each of them occurs on
the line. -/
theorem Field.references_denote (read : ofLine line number = .ok (some field)) :
    (∀ reference ∈ field.references, reference.Denotes line ∧ reference.line = field.line ∧
      field.line = number ∧ field.detail.origin? = some reference.origin) ∧
    (∀ found, LeftmostNames (searchedRegion line) 0 found ↔ found = sightings (searchedRegion line)) ∧
    field.references.map (·.name) = (sightings (searchedRegion line)).map (·.name) ∧
    (∀ sighting ∈ sightings (searchedRegion line), ∃ start, find? sighting.name line = some start) ∧
    searchedRegion line <+: line.drop (searchedColumn line) := by
  obtain ⟨placed, -⟩ := isOn_of_ofLine read
  refine ⟨fun reference member => ?_, fun _ => leftmostNames_iff, ?_, fun sighting member => ?_,
    searchedRegion_isPrefix line⟩
  · obtain ⟨denotes, row, side⟩ := denotes_of_mem read member
    exact ⟨denotes, by rw [row, placed], placed, side⟩
  · rw [map_name_references read, map_name_sightings]
  · have inside : sighting.name ∈ qualifiedNames (searchedRegion line) := by
      rw [← map_name_sightings]
      exact List.mem_map.mpr ⟨sighting, member, rfl⟩
    exact find?_of_mem_region (searchedRegion_isInfix line) inside

/-- An outcome with brackets in its braces, a name that is repeated, one of three words, and one in the
description. -/
def nestedLine : Text :=
  "// @Failure 500 \x7bmap[string]\x7d errs.List[errs.List[x.y.z]] \"no a.B\"".toList

def nestedField : Field :=
  { line := 3, detail := .response .failure 500 "map[string]".toList,
    value := "500 \x7bmap[string]\x7d errs.List[errs.List[x.y.z]]".toList, description := some "no a.B".toList,
    references := [⟨3, 30, 39, "errs.List".toList, 0, .response⟩, ⟨3, 30, 39, "errs.List".toList, 0, .response⟩,
      ⟨3, 50, 53, "x.y".toList, 2, .response⟩] }

/-- The three references are those of the names in the searched part, and the last is two brackets deep. -/
theorem Field.references_denote_small :
    ofLine nestedLine 3 = .ok (some nestedField) ∧
    Reference.Denotes ⟨3, 50, 53, "x.y".toList, 2, .response⟩ nestedLine ∧
    searchedRegion nestedLine = "errs.List[errs.List[x.y.z]]".toList ∧
    LeftmostNames "errs.List[errs.List[x.y.z]]".toList 0
      [⟨0, "errs.List".toList⟩, ⟨10, "errs.List".toList⟩, ⟨20, "x.y".toList⟩] := by
  have read : ofLine nestedLine 3 = .ok (some nestedField) := by decide +kernel
  have region : searchedRegion nestedLine = "errs.List[errs.List[x.y.z]]".toList := by decide +kernel
  obtain ⟨denote, search, -⟩ := references_denote read
  have names : sightings "errs.List[errs.List[x.y.z]]".toList =
      [⟨0, "errs.List".toList⟩, ⟨10, "errs.List".toList⟩, ⟨20, "x.y".toList⟩] := by decide +kernel
  rw [region, names] at search
  exact ⟨read, (denote _ (by simp [nestedField])).1, region, (search _).mpr rfl⟩

end

end ApiNotes
