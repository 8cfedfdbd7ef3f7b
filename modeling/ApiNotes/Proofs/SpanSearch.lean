import ApiNotes.Proofs.Spans

/-!
# The search for the parts of a line

The parts of an annotation are looked for at every place of its line, but nothing before its `@` can
begin one (`firstFrom_sign`). So they are found where the annotation was read, if they are found there at
all. A span is looked up among those of the document by its line and by its group, and on the line of a
field only that field has spans of its own (`Note.filter_spans`).
-/

namespace ApiNotes

open Text

def Span.textIn (span : Span) (line : Text) : Text := (line.take span.stop.toNat).drop span.start.toNat

/-- A part stands at its place in a line. -/
def Part.StandsIn (part : Part) (line : Text) : Prop :=
  ∃ lead rest, lead.length = part.start ∧ line = lead ++ (part.text ++ rest)

theorem Part.StandsIn.textIn {part : Part} {line : Text} (stands : part.StandsIn line) (number : Int)
    (group : SpanGroup) : (part.span number group).textIn line = part.text := by
  obtain ⟨lead, rest, place, rfl⟩ := stands
  have start : (part.span number group).start.toNat = lead.length := by
    simp [span, place]
  have stop : (part.span number group).stop.toNat = (lead ++ part.text).length := by
    rw [List.length_append, place]
    rfl
  rw [Span.textIn, start, stop, ← List.append_assoc, List.take_left, List.drop_left]

/-! ## Annotations of a line -/

/-- An annotation of a known keyword, with what precedes its `@` and the blanks around the rest of its
line. -/
structure KeywordLine where
  lead : Text
  keyword : Keyword
  gap : Text
  rest : Text
  tail : Text
  unsigned : '@' ∉ lead
  gapBlank : AllBlank gap
  tailBlank : AllBlank tail
  starts : StartsFirm rest
  ends : EndsFirm rest
  /-- The keyword ends where it stands. -/
  edge : ∀ c ∈ (gap ++ rest).head?, isWord c = false

namespace KeywordLine

/-- The line from the `@` on. -/
def body (written : KeywordLine) : Text :=
  '@' :: (written.keyword.text ++ (written.gap ++ (written.rest ++ written.tail)))

def line (written : KeywordLine) : Text := written.lead ++ written.body

/-- How many characters precede the rest of the line. -/
def restPlace (written : KeywordLine) : Nat :=
  written.lead.length + (written.keyword.text.length + 1) + written.gap.length

theorem line_eq (written : KeywordLine) :
    written.line = written.lead ++ '@' :: written.keyword.text ++ written.gap ++
      (written.rest ++ written.tail) := by
  simp [line, body]

/-- A part of the rest of the line stands in the line. -/
theorem standsIn (written : KeywordLine) {part : Part} (before after : Text)
    (split : written.rest ++ written.tail = before ++ (part.text ++ after))
    (place : part.start = written.restPlace + before.length) : part.StandsIn written.line := by
  refine ⟨written.lead ++ '@' :: written.keyword.text ++ written.gap ++ before, after, ?_, ?_⟩
  · rw [place]
    simp [restPlace]
    omega
  · rw [line_eq, split]
    simp

end KeywordLine

/-- What a field says, as the rest of its line spells it. -/
def Field.IsReadFrom (field : Field) (rest : Text) : Prop :=
  match field.detail with
  | .response _ status object => ∃ digits inside more,
      responseParts? rest = some (digits, inside, more) ∧ statusOf digits = .ok status ∧ object = trim inside
  | .param name location type required => field.value = (splitDescription rest).1 ∧ ∃ more,
      words field.value = name :: location :: more ∧ type = more.head? ∧ required = more[1]?.bind flag?
  | .router path methods => routeParts? rest = some (path, methods)
  | .security scheme => ∃ after, word? rest = some (scheme, after)
  | .tag _ => True

theorem Field.keyword_of_detail {field : Field} {detail : Detail} (same : field.detail = detail) :
    field.keyword = detail.keyword := congrArg Detail.keyword same

section

variable {line : Text} {number : Int} {field : Field}

/-- A field is read from the rest of a line with its keyword. -/
theorem Field.isReadFrom_of_ofLine (read : ofLine line number = .ok (some field)) :
    ∃ rest, keywordAndRest? line = some (field.keyword.text, rest) ∧ field.IsReadFrom rest := by
  unfold ofLine at read
  split at read
  · simp at read
  · rename_i word rest parsed
    refine ⟨rest, ?_⟩
    rw [parsed]
    split at read
    · simp at read
    · rename_i outcome known
      obtain rfl := Keyword.ofText?_eq_some_iff.mp known
      unfold ofResponse at read
      split at read
      · simp at read
      · rename_i digits object more parts
        cases status : statusOf digits with
        | error error => simp [status, bind, Except.bind] at read
        | ok code =>
          simp only [status, bind, Except.bind, pure, Except.pure] at read
          obtain rfl := Option.some.inj (Except.ok.inj read)
          exact ⟨rfl, digits, object, more, parts, status, rfl⟩
    · rename_i known
      obtain rfl := Keyword.ofText?_eq_some_iff.mp known
      have made := Except.ok.inj read
      unfold ofParam at made
      split at made
      rename_i value description split'
      split at made
      · rename_i name location more listed
        obtain rfl := Option.some.inj made
        exact ⟨rfl, by rw [split'], more, listed, rfl, rfl⟩
      · simp at made
    · rename_i known
      obtain rfl := Keyword.ofText?_eq_some_iff.mp known
      obtain ⟨⟨path, methods⟩, parts, rfl⟩ := Option.map_eq_some_iff.mp (Except.ok.inj read)
      exact ⟨rfl, parts⟩
    · rename_i known
      obtain rfl := Keyword.ofText?_eq_some_iff.mp known
      obtain ⟨⟨scheme, after⟩, word, rfl⟩ := Option.map_eq_some_iff.mp (Except.ok.inj read)
      exact ⟨rfl, after, word⟩
    · rename_i name known
      obtain rfl := Keyword.ofText?_eq_some_iff.mp known
      obtain rfl := Option.some.inj (Except.ok.inj read)
      exact ⟨rfl, trivial⟩

/-- The line of a field is an annotation from whose rest the field is read. -/
theorem Field.exists_keywordLine (read : ofLine line number = .ok (some field)) :
    ∃ written : KeywordLine, written.line = line ∧ written.keyword = field.keyword ∧
      keywordAndRest? line = some (field.keyword.text, written.rest) ∧
      field.IsReadFrom written.rest := by
  obtain ⟨rest, parsed, detail⟩ := isReadFrom_of_ofLine read
  obtain ⟨-, starts, ends, indent, inset, gap, tail, blank, insetBlank, gapBlank, tailBlank, edge, -, rfl⟩ :=
    keywordAndRest?_eq_some_iff.mp parsed
  have unsigned : '@' ∉ indent ++ '/' :: '/' :: inset := by
    intro member
    simp only [List.mem_append, List.mem_cons] at member
    rcases member with inside | same | same | inside
    · exact absurd (blank '@' inside) (by decide)
    · exact absurd same (by decide)
    · exact absurd same (by decide)
    · exact absurd (insetBlank '@' inside) (by decide)
  let written : KeywordLine :=
    ⟨indent ++ '/' :: '/' :: inset, field.keyword, gap, rest, tail, unsigned, gapBlank, tailBlank, starts,
      ends, edge⟩
  exact ⟨written, by simp [written, KeywordLine.line, KeywordLine.body], rfl, parsed, detail⟩

end

/-! ## Scans -/

section

variable {α : Type} {scan : Nat → Text → Option α}

/-- The scan looks for an `@`. -/
def LooksForSign (scan : Nat → Text → Option α) : Prop :=
  ∀ place text, text.head? ≠ some '@' → scan place text = none

/-- The scan is first of use at the first `@`. -/
theorem firstFrom_sign (looks : LooksForSign scan) {lead : Text} (unsigned : '@' ∉ lead) (text : Text)
    (place : Nat) : firstFrom scan place (lead ++ '@' :: text) =
      firstFrom scan (place + lead.length) ('@' :: text) := by
  induction lead generalizing place with
  | nil => rfl
  | cons c lead ih =>
    have other : (c :: (lead ++ '@' :: text)).head? ≠ some '@' := by
      intro same
      obtain rfl : c = '@' := Option.some.inj same
      simp at unsigned
    have later : '@' ∉ lead := fun member => unsigned (List.mem_cons_of_mem c member)
    rw [List.cons_append, firstFrom, looks place _ other]
    dsimp only
    rw [ih later, List.length_cons, Nat.add_assoc, Nat.add_comm 1]

/-- What a scan finds at the `@` of an annotation, it finds first. -/
theorem KeywordLine.firstFrom_eq (written : KeywordLine) (looks : LooksForSign scan) {result : α}
    (found : scan written.lead.length written.body = some result) :
    firstFrom scan 0 written.line = some result := by
  rw [line, body, firstFrom_sign looks written.unsigned, Nat.zero_add]
  rw [body] at found
  rw [firstFrom, found]

end

/-! ### Pieces that scans are made of -/

section

variable {p : Char → Bool} {piece gap more text : Text}

theorem run?_append (run : ∀ c ∈ piece, p c = true) (nonempty : piece ≠ [])
    (stop : ∀ c ∈ more.head?, p c = false) : run? p (piece ++ more) = some (piece, more) := by
  obtain ⟨c, tail, rfl⟩ := List.exists_cons_of_ne_nil nonempty
  rw [run?, takeWhile_append_stop run stop, dropWhile_append_stop run stop]

theorem run?_eq_none (stop : ∀ c ∈ text.head?, p c = false) : run? p text = none := by
  cases text with
  | nil => rfl
  | cons c text => simp [run?, stop c rfl]

theorem blanks?_append (blank : AllBlank gap) (apart : gap ≠ []) (firm : StartsFirm more) :
    blanks? (gap ++ more) = some (gap, more) := run?_append blank apart firm

theorem bracketed?_append {opening closing : Char} (open_ : closing ∉ text) (more : Text) :
    bracketed? opening closing (opening :: (text ++ closing :: more)) =
      some (opening :: (text ++ [closing]), more) := by
  have taken := takeWhile_ne_append open_ more
  have dropped := dropWhile_ne_append open_ more
  simp only [bracketed?, taken, dropped]
  simp

theorem afterKeyword?_append (keyword : Keyword) (place : Nat) (blank : AllBlank gap) (apart : gap ≠ [])
    (firm : StartsFirm more) : afterKeyword? keyword place ('@' :: (keyword.text ++ (gap ++ more))) =
      some (place + (keyword.text.length + 1) + gap.length, more) := by
  have lead : after? ('@' :: keyword.text) ('@' :: keyword.text ++ (gap ++ more)) = some (gap ++ more) :=
    after?_append _ _
  rw [List.cons_append] at lead
  simp [afterKeyword?, lead, blanks?_append blank apart firm]

theorem afterKeyword?_eq_none (keyword : Keyword) (place : Nat) (unsigned : text.head? ≠ some '@') :
    afterKeyword? keyword place text = none := by
  have none : after? ('@' :: keyword.text) text = none := by
    refine Option.eq_none_iff_forall_ne_some.mpr fun rest found => ?_
    rw [eq_append_of_after? found] at unsigned
    exact unsigned rfl
  simp [afterKeyword?, none]

end

namespace KeywordLine

variable (written : KeywordLine)

/-- What ends before the rest of the line does ends before the blanks after it, too. -/
theorem stops {p : Char → Bool} (blank : ∀ c, isBlank c = true → p c = false) {text : Text}
    (stop : ∀ c ∈ text.head?, p c = false) : ∀ c ∈ (text ++ written.tail).head?, p c = false := by
  intro c first
  cases text with
  | nil => exact blank c (written.tailBlank c (List.mem_of_mem_head? first))
  | cons d text => exact stop c (by simpa using first)

/-- The rest of the line is found, if blanks follow the keyword. -/
theorem afterKeyword?_body (apart : written.gap ≠ []) (nonempty : written.rest ≠ []) :
    afterKeyword? written.keyword written.lead.length written.body =
      some (written.restPlace, written.rest ++ written.tail) :=
  afterKeyword?_append written.keyword written.lead.length written.gapBlank apart
    (written.starts.append nonempty)

end KeywordLine

theorem looksForSign_keywordPart? : LooksForSign keywordPart? := by
  intro place text unsigned
  unfold keywordPart?
  split
  · exact absurd rfl unsigned
  · rfl

theorem looksForSign_responseSpots? : LooksForSign responseSpots? := by
  intro place text unsigned
  simp [responseSpots?, afterKeyword?_eq_none _ _ unsigned]

theorem looksForSign_paramSpots? : LooksForSign paramSpots? := by
  intro place text unsigned
  simp [paramSpots?, afterKeyword?_eq_none _ _ unsigned]

theorem looksForSign_routeSpots? : LooksForSign routeSpots? := by
  intro place text unsigned
  simp [routeSpots?, afterKeyword?_eq_none _ _ unsigned]

theorem looksForSign_schemePart? : LooksForSign schemePart? := by
  intro place text unsigned
  simp [schemePart?, afterKeyword?_eq_none _ _ unsigned]

/-! ## Groups and their names -/

/-- Spans that a keyword has for what follows it. -/
def SpanGroup.isPart : SpanGroup → Bool
  | .markerLine | .comment | .keyword _ | .description | .reference .. => false
  | _ => true

/-- Groups of which each has a name of its own, the same for all its spans. -/
def SpanGroup.isFixed : SpanGroup → Bool
  | .keyword _ | .reference .. => false
  | _ => true

namespace SpanGroup

variable {group : SpanGroup}

theorem isFixed_of_isPart {part : SpanGroup} (isPart : part.isPart = true) : part.isFixed = true := by
  cases part <;> first | rfl | cases isPart

/-- The groups of keywords are told by the first letter of their names. -/
theorem text_eq_keyword_iff {kind : Text} :
    group.text = "keyword.".toList ++ kind ↔
      ∃ keyword, group = .keyword keyword ∧ keyword.kindText = kind := by
  constructor
  · intro same
    have first : group.text.head? = some 'k' := by
      rw [same]
      rfl
    cases group with
    | keyword keyword => exact ⟨keyword, rfl, List.append_cancel_left same⟩
    | reference origin level => exact absurd (show some 'm' = some 'k' from first) (by decide)
    | _ => exact absurd first (by decide)
  · rintro ⟨keyword, rfl, rfl⟩
    rfl

/-- And so are those of references. -/
theorem startsWith_reference_iff :
    startsWith "model_reference.".toList group.text = true ↔
      ∃ origin level, group = .reference origin level := by
  constructor
  · intro starts
    obtain ⟨rest, after⟩ := Option.isSome_iff_exists.mp starts
    have first : group.text.head? = some 'm' := by
      rw [eq_append_of_after? after]
      rfl
    cases group with
    | keyword keyword => exact absurd (show some 'k' = some 'm' from first) (by decide)
    | reference origin level => exact ⟨origin, level, rfl⟩
    | _ => exact absurd first (by decide)
  · rintro ⟨origin, level, rfl⟩
    have split : (reference origin level).text =
        "model_reference.".toList ++ (origin.text ++ (".l".toList ++ ofInt (min (level : Int) 3))) := by
      simp only [← List.append_assoc]
      rfl
    rw [split, startsWith, after?_append]
    rfl

/-- The other groups are told by their names. -/
theorem text_eq_iff (fixed : SpanGroup) (isFixed : fixed.isFixed = true) :
    group.text = fixed.text ↔ group = fixed := by
  constructor
  · intro same
    cases group with
    | keyword keyword =>
      have first : some 'k' = fixed.text.head? := congrArg List.head? same
      cases fixed <;> first | exact absurd first (by decide) | cases isFixed
    | reference origin level =>
      have first : some 'm' = fixed.text.head? := congrArg List.head? same
      cases fixed <;> first | exact absurd first (by decide) | cases isFixed
    | _ => cases fixed <;> first | rfl | exact absurd same (by decide) | cases isFixed
  · rintro rfl
    rfl

end SpanGroup

/-! ## The spans of a field's line -/

/-- The spans on a line in the group of a name. -/
def spansNamed (spans : List Span) (number : Int) (name : Text) : List Span :=
  spans.filter fun span => span.line = number && decide (span.group.text = name)

/-- The groups of the parts that a field can have. -/
def Detail.hasPart : Detail → SpanGroup → Bool
  | .response .., .status | .response .., .object => true
  | .param .., .paramName | .param .., .paramLocation => true
  | .param .., .paramType | .param .., .paramRequired => true
  | .router .., .routePath | .router .., .routeVariable | .router .., .routeMethods => true
  | .security _, .securityScheme => true
  | _, _ => false

theorem Detail.isPart_of_hasPart {detail : Detail} {group : SpanGroup} (has : detail.hasPart group = true) :
    group.isPart = true := by
  cases detail <;> cases group <;> first | rfl | cases has

namespace Field

variable {field : Field} {line : Text} {span : Span} {part : SpanGroup}

theorem hasPart_of_mem_detailSpans (member : span ∈ field.detailSpans line) :
    field.detail.hasPart span.group = true := by
  unfold detailSpans at member
  cases detail : field.detail with
  | response outcome status object =>
    rw [detail] at member
    cases found : firstFrom responseSpots? 0 line with
    | none => simp [found] at member
    | some spots =>
      simp only [found, List.mem_cons, List.not_mem_nil, or_false] at member
      rcases member with rfl | rfl <;> rfl
  | param name location type required =>
    rw [detail] at member
    cases found : firstFrom paramSpots? 0 line with
    | none => simp [found] at member
    | some spots =>
      simp only [found, List.mem_append, List.mem_cons, List.not_mem_nil, or_false, Option.mem_toList,
        Option.map_eq_some_iff] at member
      rcases member with ((rfl | rfl) | ⟨_, -, rfl⟩) | ⟨_, -, rfl⟩ <;> rfl
  | router path methods =>
    rw [detail] at member
    cases found : firstFrom routeSpots? 0 line with
    | none => simp [found] at member
    | some spots =>
      simp only [found, List.mem_append, List.mem_cons, Option.mem_toList, List.mem_map,
        Option.map_eq_some_iff] at member
      rcases member with (rfl | ⟨_, -, rfl⟩) | ⟨_, -, rfl⟩ <;> rfl
  | security scheme =>
    rw [detail] at member
    simp only [Option.mem_toList, Option.map_eq_some_iff] at member
    obtain ⟨_, -, rfl⟩ := member
    rfl
  | tag name => simp [detail] at member

/-- A span of a field is in the group of its keyword, of a part of it, of descriptions or of one of its
references. -/
theorem cases_of_mem_spans (member : span ∈ field.spans line) :
    span.group = .keyword field.keyword ∨ field.detail.hasPart span.group = true ∨
      span.group = .description ∨ ∃ reference ∈ field.references, span =
        ⟨field.line, reference.start, reference.stop, .reference reference.origin reference.level⟩ := by
  unfold spans at member
  rcases List.mem_append.mp member with earlier | refers
  · rcases List.mem_append.mp earlier with first | described
    · rcases List.mem_append.mp first with keyword | detail
      · obtain ⟨_, -, rfl⟩ := Option.map_eq_some_iff.mp (Option.mem_toList.mp keyword)
        exact .inl rfl
      · exact .inr (.inl (hasPart_of_mem_detailSpans detail))
    · obtain ⟨_, -, later⟩ := Option.bind_eq_some_iff.mp (Option.mem_toList.mp described)
      obtain ⟨_, -, same⟩ := Option.bind_eq_some_iff.mp later
      cases same
      exact .inr (.inr (.inl rfl))
  · obtain ⟨reference, known, rfl⟩ := List.mem_map.mp refers
    exact .inr (.inr (.inr ⟨reference, known, rfl⟩))

/-- Which spans of a field are in some of the groups. -/
theorem filter_spans (p : SpanGroup → Bool) (undescribed : p .description = false) (field : Field)
    (line : Text) : (field.spans line).filter (fun span => p span.group) =
      ((firstFrom keywordPart? 0 line).map (·.span field.line (.keyword field.keyword))).toList.filter
          (fun span => p span.group) ++
        ((field.detailSpans line).filter (fun span => p span.group) ++
          (field.references.map fun reference =>
            (⟨field.line, reference.start, reference.stop, .reference reference.origin reference.level⟩ :
              Span)).filter (fun span => p span.group)) := by
  have nothing : (Option.toList (do
      guard field.description.isSome
      return (← firstFrom quotedPart? 0 line).span field.line .description)).filter
        (fun span => p span.group) = [] := by
    refine List.filter_eq_nil_iff.mpr fun span described => ?_
    obtain ⟨_, -, later⟩ := Option.bind_eq_some_iff.mp (Option.mem_toList.mp described)
    obtain ⟨_, -, same⟩ := Option.bind_eq_some_iff.mp later
    cases same
    simp [Part.span, undescribed]
  unfold spans
  rw [List.filter_append, List.filter_append, List.filter_append, nothing, List.append_nil,
    List.append_assoc]

/-- The spans of a field in the group of its keyword. -/
theorem filter_keyword (field : Field) (line : Text) :
    (field.spans line).filter
        (fun span => decide (span.group.text = "keyword.".toList ++ field.keyword.kindText)) =
      ((firstFrom keywordPart? 0 line).map (·.span field.line (.keyword field.keyword))).toList := by
  have others : ∀ group : SpanGroup, (∀ keyword, group ≠ .keyword keyword) →
      ¬decide (group.text = "keyword.".toList ++ field.keyword.kindText) = true := by
    intro group other same
    obtain ⟨keyword, is, -⟩ := SpanGroup.text_eq_keyword_iff.mp (of_decide_eq_true same)
    exact other keyword is
  rw [filter_spans (fun group => decide (group.text = "keyword.".toList ++ field.keyword.kindText))
    (Bool.eq_false_iff.mpr (others .description nofun)), List.filter_eq_self.mpr]
  · rw [List.filter_eq_nil_iff.mpr, List.filter_eq_nil_iff.mpr, List.append_nil, List.append_nil]
    · intro span refers
      obtain ⟨_, -, rfl⟩ := List.mem_map.mp refers
      refine others _ ?_
      nofun
    · intro span member
      refine others _ fun keyword same => ?_
      have isPart := Detail.isPart_of_hasPart (hasPart_of_mem_detailSpans member)
      rw [same] at isPart
      cases isPart
  · intro span member
    obtain ⟨_, -, rfl⟩ := Option.map_eq_some_iff.mp (Option.mem_toList.mp member)
    exact decide_eq_true rfl

/-- The spans of a field in the group of a part. -/
theorem filter_part (isPart : part.isPart = true) (field : Field) (line : Text) :
    (field.spans line).filter (fun span => decide (span.group.text = part.text)) =
      (field.detailSpans line).filter (fun span => decide (span.group = part)) := by
  have others : ∀ group : SpanGroup, group.isPart = false → ¬decide (group = part) = true := by
    intro group none same
    rw [of_decide_eq_true same, isPart] at none
    cases none
  simp only [SpanGroup.text_eq_iff part (SpanGroup.isFixed_of_isPart isPart)]
  rw [filter_spans (fun group => decide (group = part)) (Bool.eq_false_iff.mpr (others .description rfl)),
    List.filter_eq_nil_iff.mpr, List.nil_append]
  · refine (congrArg _ (List.filter_eq_nil_iff.mpr ?_)).trans (List.append_nil _)
    intro span refers
    obtain ⟨_, -, rfl⟩ := List.mem_map.mp refers
    exact others _ rfl
  · intro span keyword
    obtain ⟨_, -, rfl⟩ := Option.map_eq_some_iff.mp (Option.mem_toList.mp keyword)
    exact others _ rfl

/-- The spans of a field in the groups of references. -/
theorem filter_references (field : Field) (line : Text) :
    (field.spans line).filter (fun span => startsWith "model_reference.".toList span.group.text) =
      field.references.map fun reference =>
        ⟨field.line, reference.start, reference.stop, .reference reference.origin reference.level⟩ := by
  have others : ∀ group : SpanGroup, (∀ origin level, group ≠ .reference origin level) →
      ¬startsWith "model_reference.".toList group.text = true := by
    intro group other starts
    obtain ⟨origin, level, same⟩ := SpanGroup.startsWith_reference_iff.mp starts
    exact other origin level same
  rw [filter_spans (fun group => startsWith "model_reference.".toList group.text)
      (Bool.eq_false_iff.mpr (others .description nofun)),
    List.filter_eq_nil_iff.mpr, List.nil_append, List.filter_eq_nil_iff.mpr, List.nil_append,
    List.filter_eq_self.mpr]
  · intro span refers
    obtain ⟨reference, -, rfl⟩ := List.mem_map.mp refers
    exact SpanGroup.startsWith_reference_iff.mpr ⟨_, _, rfl⟩
  · intro span member
    refine others _ fun origin level same => ?_
    have isPart := Detail.isPart_of_hasPart (hasPart_of_mem_detailSpans member)
    rw [same] at isPart
    cases isPart
  · intro span keyword
    obtain ⟨_, -, rfl⟩ := Option.map_eq_some_iff.mp (Option.mem_toList.mp keyword)
    refine others _ ?_
    nofun

end Field

/-! ## The spans of a document -/

/-- Spans that are there for a line of a block, whatever is written on it. -/
def SpanGroup.isForLine : SpanGroup → Bool
  | .markerLine | .comment => true
  | _ => false

theorem SpanGroup.isForLine_of_isPart {part : SpanGroup} (isPart : part.isPart = true) :
    part.isForLine = false := by
  cases part <;> first | rfl | cases isPart

theorem Block.isForLine_of_commentSpan {block : Block} {line : Text} {number : Int} {span : Span}
    (made : block.commentSpan? line number = some span) : span.group.isForLine = true := by
  obtain ⟨place, -, rfl⟩ := Option.map_eq_some_iff.mp made
  split_ifs <;> rfl

namespace Note

variable {marker : Text} {lines : List Text} {notes : List Note} {field : Field} {span : Span}
  {p : SpanGroup → Bool}

theorem exists_line_of_mem_fields (read : ofLines marker lines = .ok notes)
    (member : field ∈ notes.flatMap (·.fields)) : ∃ line, lineAt? lines field.line.toNat = some line ∧
      lines[(field.line - 1).toNat]?.getD [] = line ∧ Field.ofLine line field.line = .ok (some field) := by
  obtain ⟨note, known, inside⟩ := List.mem_flatMap.mp member
  obtain ⟨line, number, found, -, made⟩ := exists_line_of_mem read known inside
  have place := (Field.isOn_of_ofLine made).1
  refine ⟨line, by rwa [place], ?_, by rwa [place]⟩
  cases number with
  | zero => cases found
  | succ number =>
    have row : (field.line - 1).toNat = number := by omega
    rw [row, show lines[number]? = some line from found, Option.getD_some]

/-- The spans of a note that are not there for its lines are those of its fields. -/
theorem filter_note (note : Note) (hides : ∀ group, group.isForLine = true → p group = false) :
    (note.spans lines).filter (fun span => p span.group) =
      (note.fields.flatMap fun field => field.spans (lines[(field.line - 1).toNat]?.getD [])).filter
        (fun span => p span.group) := by
  rw [spans, List.filter_append]
  refine (congrArg (· ++ _) (List.filter_eq_nil_iff.mpr fun span member => ?_)).trans (List.nil_append _)
  obtain ⟨_, -, made⟩ := List.mem_filterMap.mp member
  simp [hides _ (Block.isForLine_of_commentSpan made)]

/-- On the line of a field only that field has spans that are not there for the line. -/
theorem filter_spans (read : ofLines marker lines = .ok notes) (member : field ∈ notes.flatMap (·.fields))
    (hides : ∀ group, group.isForLine = true → p group = false) :
    (notes.flatMap (·.spans lines)).filter (fun span => span.line = field.line && p span.group) =
      (field.spans (lines[(field.line - 1).toNat]?.getD [])).filter (fun span => p span.group) := by
  have only : (notes.flatMap (·.spans lines)).filter (fun span => p span.group) =
      (notes.flatMap (·.fields)).flatMap fun field =>
        (field.spans (lines[(field.line - 1).toNat]?.getD [])).filter (fun span => p span.group) := by
    rw [List.filter_flatMap, List.flatMap_assoc]
    refine List.flatMap_congr fun note _ => ?_
    rw [filter_note note hides, List.filter_flatMap]
  -- The fields before this one have lines above, and those after it lines below.
  have ascending := fields_ascending read
  obtain ⟨above, below, split⟩ := List.append_of_mem member
  rw [split] at ascending only
  obtain ⟨-, later, earlier⟩ := List.pairwise_append.mp ascending
  have other : ∀ others : List Field, (∀ other ∈ others, other.line ≠ field.line) →
      ((others.flatMap fun field => (field.spans (lines[(field.line - 1).toNat]?.getD [])).filter
        (fun span => p span.group)).filter fun span => span.line = field.line) = [] := by
    intro others apart
    refine List.filter_eq_nil_iff.mpr fun span found => ?_
    obtain ⟨other, inside, listed⟩ := List.mem_flatMap.mp found
    rw [Field.line_of_mem_spans (List.mem_filter.mp listed).1]
    simpa using apart other inside
  have own : ((field.spans (lines[(field.line - 1).toNat]?.getD [])).filter
      (fun span => p span.group)).filter (fun span => span.line = field.line) =
      (field.spans (lines[(field.line - 1).toNat]?.getD [])).filter (fun span => p span.group) := by
    refine List.filter_eq_self.mpr fun span found => ?_
    simpa using Field.line_of_mem_spans (List.mem_filter.mp found).1
  rw [← List.filter_filter, only, List.flatMap_append, List.flatMap_cons, List.filter_append,
    List.filter_append, own, other above, other below, List.nil_append, List.append_nil]
  · intro other inside
    have := (List.pairwise_cons.mp later).1 other inside
    omega
  · intro other inside
    have := earlier other inside field (by simp)
    omega

end Note

/-- The spans of a document have those of a field on its line, by the names of their groups, and no others
of these groups. -/
structure Field.IsPlacedIn (field : Field) (spans : List Span) (line : Text) : Prop where
  keyword : (spansNamed spans field.line ("keyword.".toList ++ field.keyword.kindText)).Perm
    ((firstFrom keywordPart? 0 line).map (·.span field.line (.keyword field.keyword))).toList
  part : ∀ part : SpanGroup, part.isPart = true → (spansNamed spans field.line part.text).Perm
    ((field.detailSpans line).filter fun span => decide (span.group = part))
  references : (spans.filter fun span =>
      span.line = field.line && startsWith "model_reference.".toList span.group.text).Perm
    (field.references.map fun reference =>
      ⟨field.line, reference.start, reference.stop, .reference reference.origin reference.level⟩)

/-- The spans of a document are those of its fields and some that are there for its lines. -/
theorem Note.exists_highlight_fields {marker : Text} {lines : List Text} {notes : List Note}
    (read : ofLines marker lines = .ok notes) : ∃ spans, highlight marker lines = .ok spans ∧
      (∀ field ∈ notes.flatMap (·.fields), ∃ line, lineAt? lines field.line.toNat = some line ∧
        Field.ofLine line field.line = .ok (some field) ∧ field.IsPlacedIn spans line) ∧
      ∀ span ∈ spans, span.group.isForLine = false → ∃ field ∈ notes.flatMap (·.fields),
        ∃ line, Field.ofLine line field.line = .ok (some field) ∧ span ∈ field.spans line := by
  refine ⟨Ordered.sort Span.le (notes.flatMap (·.spans lines)), ?_, ?_, ?_⟩
  · simp [highlight, read, bind, Except.bind, pure, Except.pure]
  · intro field member
    obtain ⟨line, found, same, made⟩ := exists_line_of_mem_fields read member
    have shown : ∀ p : SpanGroup → Bool, (∀ group, group.isForLine = true → p group = false) →
        ((Ordered.sort Span.le (notes.flatMap (·.spans lines))).filter fun span =>
          span.line = field.line && p span.group).Perm
          ((field.spans line).filter fun span => p span.group) := by
      intro p hides
      rw [← same, ← filter_spans read member hides]
      exact (Ordered.sort_perm _ _).filter _
    refine ⟨line, found, made, ?_, fun part isPart => ?_, ?_⟩
    · rw [← Field.filter_keyword]
      refine shown (fun group => decide (group.text = "keyword.".toList ++ field.keyword.kindText))
        fun group forLine => decide_eq_false fun named => ?_
      obtain ⟨keyword, rfl, -⟩ := SpanGroup.text_eq_keyword_iff.mp named
      cases forLine
    · rw [← Field.filter_part isPart]
      refine shown (fun group => decide (group.text = part.text))
        fun group forLine => decide_eq_false fun named => ?_
      rw [(SpanGroup.text_eq_iff part (SpanGroup.isFixed_of_isPart isPart)).mp named,
        SpanGroup.isForLine_of_isPart isPart] at forLine
      cases forLine
    · rw [← Field.filter_references]
      refine shown (fun group => startsWith "model_reference.".toList group.text)
        fun group forLine => Bool.eq_false_iff.mpr fun starts => ?_
      obtain ⟨origin, level, rfl⟩ := SpanGroup.startsWith_reference_iff.mp starts
      cases forLine
  · intro span member ofField
    obtain ⟨note, known, inside⟩ := List.mem_flatMap.mp ((Ordered.sort_perm _ _).mem_iff.mp member)
    rcases List.mem_append.mp inside with comment | described
    · obtain ⟨_, -, made⟩ := List.mem_filterMap.mp comment
      rw [Block.isForLine_of_commentSpan made] at ofField
      cases ofField
    · obtain ⟨field, listed, there⟩ := List.mem_flatMap.mp described
      have field_mem : field ∈ notes.flatMap (·.fields) := List.mem_flatMap.mpr ⟨note, known, listed⟩
      obtain ⟨line, -, same, made⟩ := exists_line_of_mem_fields read field_mem
      exact ⟨field, field_mem, line, made, same ▸ there⟩

end ApiNotes
