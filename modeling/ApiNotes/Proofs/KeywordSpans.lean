import ApiNotes.Proofs.SpanSearch
import ApiNotes.Proofs.Totality

/-!
# Keywords, outcomes and schemes in colour

The spans for the keyword of a field, for its status and object, for its security scheme and for its
references are found by other scans than the field itself. Whatever the line, they have the texts that the
field was read from, and there are no others of their groups (`highlight_shows`).
-/

namespace ApiNotes

open Text

/-! ## Numbers -/

theorem underscoresBetween_of_not_mem {text : Text} (absent : '_' ∉ text) :
    underscoresBetween text = true := by
  induction text with
  | nil => rfl
  | cons c text ih =>
    have other : c ≠ '_' := fun same => absent (by simp [same])
    have later : '_' ∉ text := fun member => absent (List.mem_cons_of_mem c member)
    simp [underscoresBetween, other, ih later]

/-- Digits alone spell the number that they are read as. -/
theorem readInteger_digits {digits : Text} (nonempty : digits ≠ []) (decimal : ∀ c ∈ digits, isDigit c = true)
    (short : digits.length ≤ digitLimit) : readInteger digits = .ok (numberOf digits : Nat) := by
  have margin : ∀ c ∈ digits, isMargin c = false := by
    intro c member
    simp [isMargin, isBlank_of_isDigit (decimal c member)]
  have apart : ∀ d, isDigit d = false → d ∉ digits := by
    intro d other member
    rw [decimal d member] at other
    cases other
  have trimmed : ((digits.dropWhile isMargin).reverse.dropWhile isMargin).reverse = digits := by
    have kept : ∀ text : Text, (∀ c ∈ text, isMargin c = false) → text.dropWhile isMargin = text := by
      intro text none
      cases text with
      | nil => rfl
      | cons c text => simp [none c]
    rw [kept digits margin, kept _ fun c member => margin c (List.mem_reverse.mp member),
      List.reverse_reverse]
  have natural : readNatural digits digits = .ok (numberOf digits) := by
    have all : ∀ c ∈ digits, (isDigit c || c == '_') = true := by
      intro c member
      simp [decimal c member]
    have taken : digits.takeWhile (fun c => isDigit c || c == '_') = digits :=
      List.takeWhile_eq_self_iff.mpr all
    have left : digits.dropWhile (fun c => isDigit c || c == '_') = [] := List.dropWhile_eq_nil_iff.mpr all
    have kept : digits.filter isDigit = digits := List.filter_eq_self.mpr decimal
    have underscore := apart '_' (by decide)
    have first : digits.head? ≠ some '_' := fun same => underscore (List.mem_of_mem_head? same)
    simp [readNatural, taken, left, kept, first, underscoresBetween_of_not_mem underscore, nonempty,
      Nat.not_lt.mpr short]
  unfold readInteger
  rw [trimmed]
  split
  · exact absurd (List.mem_cons_self ..) (apart '-' (by decide))
  · exact absurd (List.mem_cons_self ..) (apart '+' (by decide))
  · rw [natural]
    rfl

/-! ## What is found on the line of an annotation -/

namespace KeywordLine

variable (written : KeywordLine)

theorem firstFrom_keywordPart? : firstFrom keywordPart? 0 written.line =
    some ⟨written.lead.length, '@' :: written.keyword.text⟩ := by
  have word : word? (written.keyword.text ++ (written.gap ++ (written.rest ++ written.tail))) =
      some (written.keyword.text, written.gap ++ (written.rest ++ written.tail)) := by
    refine word?_eq_some_iff.mpr ⟨written.keyword.isWord_text, ?_, rfl⟩
    rw [← List.append_assoc]
    exact written.stops (fun c => isWord_of_isBlank) written.edge
  refine written.firstFrom_eq looksForSign_keywordPart? ?_
  rw [body, keywordPart?, word]
  rfl

/-- A keyword is not followed by a word at once. -/
theorem gap_ne_nil {c : Char} (first : c ∈ written.rest.head?) (word : isWord c = true) :
    written.gap ≠ [] := by
  intro none
  have stopped := written.edge c (by rwa [none, List.nil_append])
  rw [word] at stopped
  cases stopped

theorem standsIn_keyword : Part.StandsIn ⟨written.lead.length, '@' :: written.keyword.text⟩
    written.line :=
  ⟨written.lead, written.gap ++ (written.rest ++ written.tail), rfl, by simp [line, body]⟩

/-- Both keywords of outcomes are looked for. -/
theorem afterOutcome?_body {outcome : Outcome} (keyword : written.keyword = .outcome outcome)
    (apart : written.gap ≠ []) (nonempty : written.rest ≠ []) :
    (afterKeyword? (.outcome .success) written.lead.length written.body <|>
      afterKeyword? (.outcome .failure) written.lead.length written.body) =
      some (written.restPlace, written.rest ++ written.tail) := by
  have found := written.afterKeyword?_body apart nonempty
  rw [keyword] at found
  cases outcome with
  | success =>
    rw [found]
    rfl
  | failure =>
    have other : afterKeyword? (.outcome .success) written.lead.length written.body = none := by
      rw [body, keyword]
      rfl
    rw [other, found]
    rfl

/-- The outcome is found where it is read. -/
theorem firstFrom_responseSpots? {outcome : Outcome} (keyword : written.keyword = .outcome outcome)
    {digits inside more : Text} (parts : responseParts? written.rest = some (digits, inside, more)) :
    ∃ status object : Part, firstFrom responseSpots? 0 written.line = some (status, object) ∧
      status.StandsIn written.line ∧ status.text = digits ∧
      object.StandsIn written.line ∧ object.text = '{' :: (inside ++ ['}']) := by
  obtain ⟨nonempty, decimal, -, unclosed, space, apart, blank, rest⟩ := responseParts?_eq_some_iff.mp parts
  obtain ⟨c, others, same⟩ := List.exists_cons_of_ne_nil nonempty
  have first : c ∈ written.rest.head? := by simp [rest, same]
  have gap := written.gap_ne_nil first (isWord_of_isDigit (decimal c (by simp [same])))
  have whole : written.rest ++ written.tail =
      digits ++ (space ++ '{' :: (inside ++ '}' :: (more ++ written.tail))) := by simp [rest]
  have brace : StartsFirm ('{' :: (inside ++ '}' :: (more ++ written.tail))) := by
    intro d head
    cases head
    decide
  have run : run? isDigit (written.rest ++ written.tail) =
      some (digits, space ++ '{' :: (inside ++ '}' :: (more ++ written.tail))) := by
    rw [whole]
    exact run?_append decimal nonempty (stops_at_gap blank apart (fun _ => isDigit_of_isBlank) _)
  have found : responseSpots? written.lead.length written.body =
      some (⟨written.restPlace, digits⟩,
        ⟨written.restPlace + digits.length + space.length, '{' :: (inside ++ ['}'])⟩) := by
    have outcome := written.afterOutcome?_body keyword gap (List.ne_nil_of_mem (List.mem_of_mem_head? first))
    simp only [responseSpots?, outcome, bind, Option.bind, run, blanks?_append blank apart brace,
      bracketed?_append unclosed]
  refine ⟨_, _, written.firstFrom_eq looksForSign_responseSpots? found, ?_, rfl, ?_, rfl⟩
  · exact written.standsIn [] _ whole rfl
  · refine written.standsIn (digits ++ space) (more ++ written.tail) ?_ ?_
    · simp [whole]
    · simp [Nat.add_assoc]

/-- The scheme is found where it is read. -/
theorem firstFrom_schemePart? (keyword : written.keyword = .security) {scheme after : Text}
    (read : word? written.rest = some (scheme, after)) :
    ∃ part : Part, firstFrom schemePart? 0 written.line = some part ∧
      part.StandsIn written.line ∧ part.text = scheme := by
  obtain ⟨word, stop, rest⟩ := word?_eq_some_iff.mp read
  obtain ⟨c, others, same⟩ := List.exists_cons_of_ne_nil word.1
  have first : c ∈ written.rest.head? := by simp [rest, same]
  have gap := written.gap_ne_nil first (word.2 c (by simp [same]))
  have whole : written.rest ++ written.tail = scheme ++ (after ++ written.tail) := by simp [rest]
  have scanned : word? (written.rest ++ written.tail) = some (scheme, after ++ written.tail) :=
    word?_eq_some_iff.mpr ⟨word, written.stops (fun c => isWord_of_isBlank) stop, whole⟩
  have found : schemePart? written.lead.length written.body = some ⟨written.restPlace, scheme⟩ := by
    have begun := written.afterKeyword?_body gap (List.ne_nil_of_mem (List.mem_of_mem_head? first))
    rw [keyword] at begun
    simp only [schemePart?, begun, bind, Option.bind, scanned]
  exact ⟨_, written.firstFrom_eq looksForSign_schemePart? found, written.standsIn [] _ whole rfl,
    rfl⟩

end KeywordLine

/-! ## Agreement -/

/-- There is one span of a group on a line, and its text is as it should be. -/
def OneSpan (spans : List Span) (number : Int) (name line : Text) (p : Text → Prop) : Prop :=
  ∃ span, spansNamed spans number name = [span] ∧ p (span.textIn line)

/-- The spans of a document say on the line of a field what the field says. -/
structure Field.IsShownIn (field : Field) (spans : List Span) (line : Text) : Prop where
  keyword : OneSpan spans field.line ("keyword.".toList ++ field.keyword.kindText) line
    (· = '@' :: field.keyword.text)
  status : ∀ outcome status object, field.detail = .response outcome status object →
    OneSpan spans field.line "status_code".toList line (readInteger · = .ok (status : Int))
  object : ∀ outcome status object, field.detail = .response outcome status object →
    OneSpan spans field.line "type_keyword".toList line
      (fun text => ∃ inside, text = '{' :: (inside ++ ['}']) ∧ trim inside = object)
  scheme : ∀ scheme, field.detail = .security scheme →
    OneSpan spans field.line "security_scheme".toList line (· = scheme)
  /-- As many spans as references. -/
  references : ((spans.filter fun span =>
      span.line = field.line && startsWith "model_reference.".toList span.group.text).map fun span =>
        (span.start, span.stop, span.group.text)).Perm
    (field.references.map fun reference => (reference.start, reference.stop,
      "model_reference.".toList ++ reference.origin.text ++ ".l".toList ++ ofInt (min reference.level 3)))

/-- A span is in the group of a keyword, of a part of an outcome, of a scheme or of a reference only on the
line of a field that has one. -/
structure Span.IsOfField (span : Span) (fields : List Field) : Prop where
  keyword : ∀ kind, span.group.text = "keyword.".toList ++ kind →
    ∃ field ∈ fields, field.line = span.line ∧ field.keyword.kindText = kind
  response : span.group.text = "status_code".toList ∨ span.group.text = "type_keyword".toList →
    ∃ field ∈ fields, field.line = span.line ∧
      ∃ outcome status object, field.detail = .response outcome status object
  scheme : span.group.text = "security_scheme".toList →
    ∃ field ∈ fields, field.line = span.line ∧ ∃ scheme, field.detail = .security scheme
  reference : startsWith "model_reference.".toList span.group.text = true →
    ∃ field ∈ fields, field.line = span.line ∧ ∃ reference ∈ field.references,
      span.start = reference.start ∧ span.stop = reference.stop

section

variable {spans : List Span} {line : Text} {field : Field} {number : Int}

theorem oneSpan_of_perm {name : Text} {part : Part} {group : SpanGroup} {p : Text → Prop}
    (placed : (spansNamed spans number name).Perm [part.span number group]) (stands : part.StandsIn line)
    (holds : p part.text) : OneSpan spans number name line p :=
  ⟨part.span number group, List.perm_singleton.mp placed, by rwa [stands.textIn]⟩

theorem Field.IsPlacedIn.isShownIn (placed : field.IsPlacedIn spans line)
    (read : ofLine line number = .ok (some field)) : field.IsShownIn spans line := by
  obtain ⟨written, rfl, keyword, -, known⟩ := exists_keywordLine read
  refine ⟨?_, ?_, ?_, ?_, ?_⟩
  · have shown := placed.keyword
    rw [written.firstFrom_keywordPart?] at shown
    exact oneSpan_of_perm shown written.standsIn_keyword (by rw [keyword])
  · intro outcome status object detail
    unfold IsReadFrom at known
    rw [detail] at known
    obtain ⟨digits, inside, more, parts, code, rfl⟩ := known
    have kind : written.keyword = .outcome outcome := keyword.trans (keyword_of_detail detail)
    obtain ⟨spot, braced, found, stands, digitsText, -⟩ := written.firstFrom_responseSpots? kind parts
    have shown := placed.part .status rfl
    rw [detailSpans, detail, found] at shown
    refine oneSpan_of_perm shown stands ?_
    obtain ⟨nonempty, decimal, -⟩ := responseParts?_eq_some_iff.mp parts
    unfold statusOf at code
    split_ifs at code with long
    rw [digitsText, readInteger_digits nonempty decimal (Nat.not_lt.mp long), Except.ok.inj code]
  · intro outcome status object detail
    unfold IsReadFrom at known
    rw [detail] at known
    obtain ⟨digits, inside, more, parts, -, rfl⟩ := known
    have kind : written.keyword = .outcome outcome := keyword.trans (keyword_of_detail detail)
    obtain ⟨spot, braced, found, -, -, stands, objectText⟩ := written.firstFrom_responseSpots? kind parts
    have shown := placed.part .object rfl
    rw [detailSpans, detail, found] at shown
    exact oneSpan_of_perm shown stands ⟨inside, objectText, rfl⟩
  · intro scheme detail
    unfold IsReadFrom at known
    rw [detail] at known
    obtain ⟨after, word⟩ := known
    have kind : written.keyword = .security := keyword.trans (keyword_of_detail detail)
    obtain ⟨part, found, stands, text⟩ := written.firstFrom_schemePart? kind word
    have shown := placed.part .securityScheme rfl
    rw [detailSpans, detail, found] at shown
    exact oneSpan_of_perm shown stands text
  · have shown := placed.references.map fun span => (span.start, span.stop, span.group.text)
    rw [List.map_map] at shown
    exact shown

/-- A span in a group that is not there for the line is one of a field. -/
theorem Span.isOfField {fields : List Field} {span : Span}
    (ofField : span.group.isForLine = false → ∃ field ∈ fields,
      ∃ line, Field.ofLine line field.line = .ok (some field) ∧ span ∈ field.spans line) :
    span.IsOfField fields := by
  have ofPart : ∀ part : SpanGroup, part.isPart = true → span.group = part →
      ∃ field ∈ fields, field.line = span.line ∧ field.detail.hasPart part = true := by
    intro part isPart group
    obtain ⟨field, member, line, -, inside⟩ := ofField (by rw [group, SpanGroup.isForLine_of_isPart isPart])
    refine ⟨field, member, (Field.line_of_mem_spans inside).symm, ?_⟩
    rcases Field.cases_of_mem_spans inside with keyword | has | description | ⟨reference, -, rfl⟩
    · rw [← group, keyword] at isPart
      cases isPart
    · rwa [group] at has
    · rw [← group, description] at isPart
      cases isPart
    · rw [← group] at isPart
      cases isPart
  constructor
  · intro kind named
    obtain ⟨keyword, group, rfl⟩ := SpanGroup.text_eq_keyword_iff.mp named
    obtain ⟨field, member, line, -, inside⟩ := ofField (by rw [group]; rfl)
    refine ⟨field, member, (Field.line_of_mem_spans inside).symm, ?_⟩
    rcases Field.cases_of_mem_spans inside with same | has | description | ⟨reference, -, rfl⟩
    · rw [group] at same
      rw [SpanGroup.keyword.inj same]
    · rw [group] at has
      cases Detail.isPart_of_hasPart has
    · rw [group] at description
      cases description
    · cases group
  · intro named
    have group : span.group = .status ∨ span.group = .object :=
      named.imp (SpanGroup.text_eq_iff .status rfl).mp (SpanGroup.text_eq_iff .object rfl).mp
    obtain ⟨field, member, line, has⟩ : ∃ field ∈ fields, field.line = span.line ∧
        (field.detail.hasPart .status = true ∨ field.detail.hasPart .object = true) := by
      rcases group with status | object
      · obtain ⟨field, member, line, has⟩ := ofPart .status rfl status
        exact ⟨field, member, line, .inl has⟩
      · obtain ⟨field, member, line, has⟩ := ofPart .object rfl object
        exact ⟨field, member, line, .inr has⟩
    refine ⟨field, member, line, ?_⟩
    cases detail : field.detail with
    | response outcome status object => exact ⟨outcome, status, object, rfl⟩
    | _ =>
      rw [detail] at has
      rcases has with none | none <;> cases none
  · intro named
    obtain ⟨field, member, line, has⟩ := ofPart .securityScheme rfl
      ((SpanGroup.text_eq_iff .securityScheme rfl).mp named)
    refine ⟨field, member, line, ?_⟩
    cases detail : field.detail with
    | security scheme => exact ⟨scheme, rfl⟩
    | _ =>
      rw [detail] at has
      cases has
  · intro starts
    obtain ⟨origin, level, group⟩ := SpanGroup.startsWith_reference_iff.mp starts
    obtain ⟨field, member, line, -, inside⟩ := ofField (by rw [group]; rfl)
    refine ⟨field, member, (Field.line_of_mem_spans inside).symm, ?_⟩
    rcases Field.cases_of_mem_spans inside with same | has | description | ⟨reference, known, rfl⟩
    · rw [group] at same
      cases same
    · rw [group] at has
      cases Detail.isPart_of_hasPart has
    · rw [group] at description
      cases description
    · exact ⟨reference, known, rfl, rfl⟩

end

/-- Where a document can be read, its spans say what its fields say, each on its line, and no other span is
in the groups of what they say. -/
theorem highlight_shows {marker : Text} {lines : List Text} {notes : List Note}
    (read : Note.ofLines marker lines = .ok notes) : ∃ spans, highlight marker lines = .ok spans ∧
      (∀ field ∈ notes.flatMap (·.fields), ∃ line, lineAt? lines field.line.toNat = some line ∧
        field.IsShownIn spans line) ∧
      ∀ span ∈ spans, span.IsOfField (notes.flatMap (·.fields)) := by
  obtain ⟨spans, highlighted, placed, ofField⟩ := Note.exists_highlight_fields read
  refine ⟨spans, highlighted, ?_, fun span member => Span.isOfField (ofField span member)⟩
  intro field member
  obtain ⟨line, found, made, there⟩ := placed field member
  exact ⟨line, found, there.isShownIn made⟩

/-- A marker, an outcome in Arabic digits with two references, and a scheme. -/
def colouredLines : List Text :=
  ["// godoc", "// @Failure ٤٠٤ {object} a.List[a.B]", "// @Security Key;"].map String.toList

def colouredNotes : List Note :=
  [⟨⟨1, 3⟩, [⟨2, .response .failure 404 "object".toList, "٤٠٤ {object} a.List[a.B]".toList, none,
      [⟨2, 25, 31, "a.List".toList, 0, .response⟩, ⟨2, 32, 35, "a.B".toList, 1, .response⟩]⟩,
    ⟨3, .security "Key".toList, "Key;".toList, none, []⟩]⟩]

theorem highlight_shows_small : Note.ofLines defaultMarker colouredLines = .ok colouredNotes ∧
    ∃ spans, highlight defaultMarker colouredLines = .ok spans ∧
      (∀ field ∈ colouredNotes.flatMap (·.fields),
        ∃ line, lineAt? colouredLines field.line.toNat = some line ∧ field.IsShownIn spans line) ∧
      ∀ span ∈ spans, span.IsOfField (colouredNotes.flatMap (·.fields)) := by
  have read : Note.ofLines defaultMarker colouredLines = .ok colouredNotes := by decide +kernel
  exact ⟨read, highlight_shows read⟩

end ApiNotes
