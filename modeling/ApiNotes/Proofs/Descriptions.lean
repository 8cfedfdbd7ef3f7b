import ApiNotes.Proofs.Regions

/-!
# References and the description of a line

The value of an annotation is the text before the first blanks that a quote follows, and the description is
the text after that quote. An outcome is taken apart twice, as a whole and from the closing brace on, and the
second time the references are looked for. Both times the same text is the description
(`region_isInfix_value`), with two exceptions: the first quote after blanks stands in the braces, or it is the
first thing after them. What is then searched of the description is `overreadText`, and a name that is read
from the description is one of its names (`Field.references_in_value_iff`).
-/

namespace ApiNotes

open Text

section

variable {text lead front more : Text}

/-! ## Where a text is cut -/

theorem cutAtQuote?_of_afterOpeningQuote? (opens : afterOpeningQuote? text = some more) :
    cutAtQuote? text = some ([], more) := by
  obtain ⟨gap, apart, blank, rfl⟩ := afterOpeningQuote?_eq_some_iff.mp opens
  exact cutAtQuote?_append List.isChain_nil (fun _ last => by cases last) blank apart more

theorem afterOpeningQuote?_eq_none_of_cut (cut : ∀ after, cutAtQuote? text ≠ some ([], after)) :
    afterOpeningQuote? text = none :=
  Option.eq_none_iff_forall_ne_some.mpr fun after opens => cut after (cutAtQuote?_of_afterOpeningQuote? opens)

theorem cutAtQuote?_eq_none_iff : cutAtQuote? text = none ↔ QuotesAttached text := by
  refine ⟨fun uncut => ?_, cutAtQuote?_eq_none⟩
  induction text with
  | nil => exact List.isChain_nil
  | cons c text ih =>
    cases here : afterOpeningQuote? (c :: text) with
    | some more =>
      rw [cutAtQuote?_of_some here] at uncut
      cases uncut
    | none =>
      rw [cutAtQuote?_of_none here, Option.map_eq_none_iff] at uncut
      refine List.isChain_cons.mpr ⟨fun d first blank quote => ?_, ih uncut⟩
      obtain ⟨tail, rfl⟩ := List.head?_eq_some_iff.mp first
      have opens : afterOpeningQuote? (c :: d :: tail) = some tail :=
        afterOpeningQuote?_eq_some_iff.mpr ⟨[c], by simp, List.forall_mem_singleton.mpr blank, by simp [quote]⟩
      rw [here] at opens
      cases opens

/-- Nothing that follows a text which ends without a blank comes after a blank of it. -/
theorem QuotesAttached.append_firm (attached : QuotesAttached front) (firm : EndsFirm front)
    (others : QuotesAttached text) : QuotesAttached (front ++ text) := by
  refine List.isChain_append.mpr ⟨attached, others, fun a last _ _ blank => ?_⟩
  rw [firm a last] at blank
  cases blank

theorem cutAtQuote?_append_firm (attached : QuotesAttached front) (firm : EndsFirm front) (text : Text) :
    cutAtQuote? (front ++ text) = (cutAtQuote? text).map fun cut => (front ++ cut.1, cut.2) := by
  cases cut : cutAtQuote? text with
  | none => exact cutAtQuote?_eq_none (attached.append_firm firm (cutAtQuote?_eq_none_iff.mp cut))
  | some found =>
    obtain ⟨lead, more⟩ := found
    obtain ⟨inner, ends, gap, apart, blank, rfl⟩ := cutAtQuote?_eq_some_iff.mp cut
    have endsFirm : EndsFirm (front ++ lead) := by
      by_cases empty : lead = []
      · simpa [empty] using firm
      · exact ends.append empty front
    have whole := cutAtQuote?_append (attached.append_firm firm inner) endsFirm blank apart more
    simpa using whole

theorem Text.EndsFirm.trim (firm : EndsFirm text) : trim text = trimLeft text :=
  (firm.of_isSuffix (List.dropWhile_suffix isBlank)).trimRight

theorem Text.EndsFirm.trim_ne_nil (firm : EndsFirm text) (nonempty : text ≠ []) : Text.trim text ≠ [] :=
  trim_ne_nil_iff.mpr ⟨text.getLast nonempty, List.getLast_mem nonempty,
    firm _ (List.getLast?_eq_some_getLast nonempty)⟩

/-- A text that begins with a quote is cut at a later one. -/
theorem splitDescription_quote (text : Text) : (splitDescription ('"' :: text)).1 =
    match cutAtQuote? text with
    | some (lead, _) => '"' :: lead
    | none => [] := by
  have quote : EndsFirm ['"'] := endsFirm_concat [] (by decide)
  have cut := cutAtQuote?_append_firm (List.isChain_singleton '"') quote text
  rw [List.singleton_append] at cut
  rw [splitDescription, cut]
  cases found : cutAtQuote? text with
  | none => simp
  | some pair =>
    obtain ⟨lead, more⟩ := pair
    have firm := (cutAtQuote?_eq_some_iff.mp found).2.1
    have whole : trim ('"' :: lead) = '"' :: lead := by
      refine trim_eq_self_iff.mpr ⟨?_, firm.cons (by decide)⟩
      rintro c ⟨rfl⟩
      decide
    simp [whole]

/-! ## The second cut -/

/-- What is searched after the braces of an outcome although it belongs to the description. That is all that
is searched, if a quote follows a blank in the braces already. Otherwise it is the description up to its first
blanks before a quote, if nothing stands between the braces and the description. -/
def overreadAfter (object more : Text) : Text :=
  if QuotesAttached object then
    match (afterOpeningQuote? more).bind cutAtQuote? with
    | some (lead, _) => lead
    | none => []
  else (splitDescription (trim more)).1

/-- What is searched of the description of a line. -/
def overreadText (line : Text) : Text :=
  match keywordAndRest? line with
  | some (word, rest) =>
    match Keyword.ofText? word, responseParts? rest with
    | some (.outcome _), some (_, object, more) => overreadAfter object more
    | _, _ => []
  | none => []

theorem overreadAfter_of_attached {object : Text} (attached : QuotesAttached object)
    (closed : afterOpeningQuote? more = none) : overreadAfter object more = [] := by
  simp [overreadAfter, attached, closed]

/-- The text up to the closing brace has no quote after a blank, if what is in the braces has none. -/
theorem upToBrace_attached {digits gap object : Text} (decimal : ∀ c ∈ digits, isDigit c = true)
    (blank : AllBlank gap) (attached : QuotesAttached object) :
    QuotesAttached (digits ++ gap ++ ['{'] ++ (object ++ ['}'])) := by
  have unquoted : '"' ∉ digits ++ gap ++ ['{'] := by
    intro member
    rcases List.mem_append.mp member with inside | inside
    · rcases List.mem_append.mp inside with inside | inside
      · exact absurd (decimal _ inside) (by decide)
      · exact absurd (blank _ inside) (by decide)
    · exact absurd inside (by decide)
  have braced : QuotesAttached (object ++ ['}']) :=
    attached.append (List.isChain_singleton '}') (by simp)
  exact (quotesAttached_of_unquoted unquoted).append_firm (endsFirm_concat _ (by decide)) braced

/-- Where no quote follows a blank, both times the whole text is taken. -/
theorem region_of_uncut (plain : text.head? ≠ some '"') (starts : StartsFirm text) (ends : EndsFirm text)
    (uncut : cutAtQuote? text = none) (suffix : more <:+ text) :
    (splitDescription (trim more)).1 <:+: (splitDescription text).1 := by
  have value : (splitDescription text).1 = text := by
    rw [splitDescription, uncut]
    simpa [plain] using trim_eq_self_iff.mpr ⟨starts, ends⟩
  have firm : StartsFirm (trim more) := (trim_eq_self_iff.mp (trim_trim more)).1
  rw [value]
  exact (splitDescription_isPrefix firm).isInfix.trans (trim_isSuffix ends suffix).isInfix

/-- Where a text stands before the first quote after a blank, both times it is taken to the same quote. -/
theorem region_of_lead {after : Text} (attached : QuotesAttached front) (ends : EndsFirm front)
    (starts : StartsFirm (front ++ more)) (firm : EndsFirm more) (cut : cutAtQuote? more = some (lead, after))
    (nonempty : lead ≠ []) :
    (splitDescription (trim more)).1 <:+: (splitDescription (front ++ more)).1 := by
  have whole := cutAtQuote?_append_firm attached ends more
  rw [cut, Option.map_some] at whole
  obtain ⟨leadAttached, leadEnds, gap, apart, blank, rfl⟩ := cutAtQuote?_eq_some_iff.mp cut
  have value : (splitDescription (front ++ (lead ++ (gap ++ '"' :: after)))).1 = front ++ lead := by
    have begins : StartsFirm (front ++ lead) := fun c head =>
      starts c (by rw [← List.append_assoc]; exact List.mem_head?_append_of_mem_head? head)
    rw [splitDescription, whole]
    exact trim_eq_self_iff.mpr ⟨begins, leadEnds.append nonempty front⟩
  -- The blanks that are trimmed off stand before the text, so the quote is still the first one after a blank.
  have region : (splitDescription (trim (lead ++ (gap ++ '"' :: after)))).1 = trim lead := by
    obtain ⟨indent, indentBlank, split⟩ := exists_trimLeft lead
    rw [← leadEnds.trim] at split
    obtain ⟨trimStarts, trimEnds⟩ := trim_eq_self_iff.mp (trim_trim lead)
    have inner : QuotesAttached (trim lead) := by
      rw [split] at leadAttached
      exact (List.isChain_append.mp leadAttached).2.1
    have onward : trim (lead ++ (gap ++ '"' :: after)) = trim lead ++ (gap ++ '"' :: after) := by
      rw [firm.trim]
      conv_lhs => rw [split, List.append_assoc]
      rw [trimLeft_append indentBlank, (trimStarts.append (leadEnds.trim_ne_nil nonempty)).trimLeft]
    rw [onward, splitDescription, cutAtQuote?_append inner trimEnds blank apart]
    exact trim_trim lead
  rw [region, value]
  exact ((trim_isSuffix leadEnds List.suffix_rfl).trans (List.suffix_append front lead)).isInfix

/-- Where the description follows the braces, its quote is no cut without the blanks before it, and what is
searched is cut at a later one. -/
theorem qualifiedNames_of_opens {object after : Text} (attached : QuotesAttached object)
    (firm : EndsFirm more) (opens : afterOpeningQuote? more = some after) :
    qualifiedNames (splitDescription (trim more)).1 = qualifiedNames (overreadAfter object more) := by
  obtain ⟨gap, -, blank, split⟩ := afterOpeningQuote?_eq_some_iff.mp opens
  have onward : trim more = '"' :: after := by
    rw [firm.trim, split, trimLeft_append blank]
    rfl
  rw [onward, splitDescription_quote, overreadAfter, if_pos attached, opens, Option.bind_some]
  cases cutAtQuote? after with
  | none => rfl
  | some pair => exact qualifiedNames_cons (by decide)

/-- What is searched of an outcome is part of its value, or has the names that are overread. -/
theorem region_isInfix_value {rest digits object : Text} (starts : StartsFirm rest) (ends : EndsFirm rest)
    (parts : responseParts? rest = some (digits, object, more)) :
    ((splitDescription (trim more)).1 <:+: (splitDescription rest).1 ∧ overreadAfter object more = []) ∨
      qualifiedNames (splitDescription (trim more)).1 = qualifiedNames (overreadAfter object more) := by
  obtain ⟨nonempty, decimal, -, -, space, -, spaceBlank, rfl⟩ := responseParts?_eq_some_iff.mp parts
  by_cases attached : QuotesAttached object
  · have plain : (digits ++ (space ++ '{' :: (object ++ '}' :: more))).head? ≠ some '"' := by
      rw [head?_append_of_ne_nil nonempty]
      intro quote
      exact absurd (decimal _ (List.mem_of_mem_head? quote)) (by decide)
    generalize upTo : digits ++ space ++ ['{'] ++ (object ++ ['}']) = front
    have whole : digits ++ (space ++ '{' :: (object ++ '}' :: more)) = front ++ more := by simp [← upTo]
    have frontAttached : QuotesAttached front := upTo ▸ upToBrace_attached decimal spaceBlank attached
    have frontEnds : EndsFirm front := by
      rw [← upTo, ← List.append_assoc]
      exact endsFirm_concat _ (by decide)
    rw [whole] at starts ends plain ⊢
    have firm : EndsFirm more := ends.of_isSuffix (List.suffix_append front more)
    -- The first quote after a blank behind the braces: there is none, it opens at once, or text precedes it.
    cases cut : cutAtQuote? more with
    | none =>
      have closed : afterOpeningQuote? more = none := afterOpeningQuote?_eq_none_of_cut (by simp [cut])
      have uncut : cutAtQuote? (front ++ more) = none := by
        rw [cutAtQuote?_append_firm frontAttached frontEnds, cut, Option.map_none]
      exact .inl ⟨region_of_uncut plain starts ends uncut (List.suffix_append front more),
        overreadAfter_of_attached attached closed⟩
    | some found =>
      obtain ⟨lead, after⟩ := found
      by_cases empty : lead = []
      · subst empty
        obtain ⟨-, -, gap, apart, blank, split⟩ := cutAtQuote?_eq_some_iff.mp cut
        have opens : afterOpeningQuote? more = some after :=
          afterOpeningQuote?_eq_some_iff.mpr ⟨gap, apart, blank, split⟩
        exact .inr (qualifiedNames_of_opens attached firm opens)
      · have closed : afterOpeningQuote? more = none :=
          afterOpeningQuote?_eq_none_of_cut (by simp [cut, empty])
        exact .inl ⟨region_of_lead frontAttached frontEnds starts firm cut empty,
          overreadAfter_of_attached attached closed⟩
  · exact .inr (by rw [overreadAfter, if_neg attached])

end

/-! ## The references of a field -/

section

variable {line : Text} {number : Int} {field : Field}

theorem overreadText_of_unsearched (unsearched : searchedFrom? line = none) : overreadText line = [] := by
  unfold overreadText
  split
  · rename_i word rest parsed
    split
    · rename_i outcome digits object more known parts
      simp [searchedFrom?, parsed, known, parts] at unsearched
    · rfl
  · rfl

theorem Field.searchedRegion_cases (read : ofLine line number = .ok (some field)) :
    (searchedRegion line <:+: field.value ∧ overreadText line = []) ∨
      (field.detail.origin? = some .response ∧
        qualifiedNames (searchedRegion line) = qualifiedNames (overreadText line)) := by
  rcases cases_of_ofLine read with
    ⟨outcome, rest, digits, object, more, parsed, parts, searched, side, value, -⟩ |
    ⟨rest, parsed, searched, -, value, -⟩ | ⟨unsearched, -, -⟩
  · obtain ⟨starts, ends, -⟩ := isSuffix_of_keywordAndRest? parsed
    have region : searchedRegion line = (splitDescription (trim more)).1 := by
      simp only [searchedRegion, searched]
    have overread : overreadText line = overreadAfter object more := by
      simp only [overreadText, parsed, Keyword.ofText?_text, parts]
    rw [region, value, overread]
    exact (region_isInfix_value starts ends parts).imp_right fun same => ⟨side, same⟩
  · have region : searchedRegion line = field.value := by
      simp only [searchedRegion, searched, value]
    have none : overreadText line = [] := by
      simp only [overreadText, parsed, Keyword.ofText?_text]
    exact .inl ⟨region ▸ List.infix_rfl, none⟩
  · have region : searchedRegion line = [] := by
      simp only [searchedRegion, unsearched]
    exact .inl ⟨region ▸ List.nil_infix, overreadText_of_unsearched unsearched⟩

/-- A name that the value of a field does not have is referred to just if it is overread from the description;
so all references of a field are found in its value just if every name that is overread occurs there too.
Those of a parameter always are. -/
theorem Field.references_in_value_iff (read : ofLine line number = .ok (some field)) :
    ((∀ reference ∈ field.references, reference.name <:+: field.value) ↔
      ∀ name ∈ qualifiedNames (overreadText line), name <:+: field.value) ∧
    (∀ name, ¬name <:+: field.value →
      (name ∈ field.references.map (·.name) ↔ name ∈ qualifiedNames (overreadText line))) ∧
    (field.detail.origin? ≠ some .response →
      ∀ reference ∈ field.references, reference.name <:+: field.value) := by
  have named := map_name_references read
  have inside : (∀ reference ∈ field.references, reference.name <:+: field.value) ↔
      ∀ name ∈ qualifiedNames (searchedRegion line), name <:+: field.value := by
    rw [← named, List.forall_mem_map]
  rw [inside, named]
  rcases searchedRegion_cases read with ⟨part, none⟩ | ⟨side, same⟩
  · have found : ∀ name ∈ qualifiedNames (searchedRegion line), name <:+: field.value :=
      fun name member => (isInfix_of_mem_qualifiedNames member).trans part
    have nothing : qualifiedNames (overreadText line) = [] := by rw [none]; rfl
    rw [nothing]
    refine ⟨⟨fun _ => by simp, fun _ => found⟩, fun name outside => ?_, fun _ => found⟩
    exact ⟨fun member => absurd (found name member) outside, fun member => by cases member⟩
  · rw [same]
    exact ⟨Iff.rfl, fun _ _ => Iff.rfl, fun other => absurd side other⟩

/-- An outcome with a name in its braces, and with that name and another one in its description. -/
def bracedLine : Text := "// @Success 200 \x7bmodels.User\x7d \"models.User \"of a.List\"\"".toList

def bracedField : Field :=
  { line := 1, detail := .response .success 200 "models.User".toList,
    value := "200 \x7bmodels.User\x7d".toList, description := some "models.User \"of a.List\"".toList,
    references := [⟨1, 17, 28, "models.User".toList, 0, .response⟩] }

/-- A parameter whose type is named in its description. -/
def namedLine : Text := "// @Param user body models.User true \"a.List of models.User\"".toList

def namedField : Field :=
  { line := 1,
    detail := .param "user".toList "body".toList (some "models.User".toList) (some true),
    value := "user body models.User true".toList, description := some "a.List of models.User".toList,
    references := [⟨1, 20, 31, "models.User".toList, 0, .request⟩] }

/-- The name that is overread from the first description is also in the value, and the other name is not
referred to; nothing of the second description is read. -/
theorem Field.references_in_value_iff_small :
    (ofLine bracedLine 1 = .ok (some bracedField) ∧ overreadText bracedLine = "models.User".toList ∧
      (∀ reference ∈ bracedField.references, reference.name <:+: bracedField.value) ∧
      "a.List".toList ∉ bracedField.references.map (·.name)) ∧
    ofLine namedLine 1 = .ok (some namedField) ∧
      ∀ reference ∈ namedField.references, reference.name <:+: namedField.value := by
  have read : ofLine bracedLine 1 = .ok (some bracedField) := by decide +kernel
  have overread : overreadText bracedLine = "models.User".toList := by decide +kernel
  have names : qualifiedNames "models.User".toList = ["models.User".toList] := by decide +kernel
  obtain ⟨inside, outside, -⟩ := references_in_value_iff read
  rw [overread, names] at inside outside
  have other : ofLine namedLine 1 = .ok (some namedField) := by decide +kernel
  refine ⟨⟨read, overread, inside.mpr ?_, fun referred => ?_⟩, other, ?_⟩
  · exact List.forall_mem_singleton.mpr (by decide +kernel)
  · exact absurd ((outside "a.List".toList (by decide +kernel)).mp referred) (by decide)
  · exact (references_in_value_iff other).2.2 (by decide)

/-- An outcome without a model, whose description begins with a name and quotes a word. -/
def quotingLine : Text := "// @Failure 404 \x7bobject\x7d \"models.User \"alice\" not found\"".toList

/-- The name in the description is read as a reference. -/
theorem Field.references_stray :
    ofLine quotingLine 1 = .ok (some
      { line := 1, detail := .response .failure 404 "object".toList, value := "404 \x7bobject\x7d".toList,
        description := some "models.User \"alice\" not found".toList,
        references := [⟨1, 26, 37, "models.User".toList, 0, .response⟩] }) ∧
    ¬"models.User".toList <:+: "404 \x7bobject\x7d".toList := by
  constructor
  · decide +kernel
  · decide +kernel

end

end ApiNotes
