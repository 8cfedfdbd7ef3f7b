import ApiNotes.Proofs.Regions
import ApiNotes.Proofs.RouteSpans
import Mathlib.Data.Option.Basic

/-!
# Where spans lie

A scan finds its parts inside the text that it scans, and each of them has at least one character
(`ScansWithin`); so every span of a field is a stretch of its line (`Field.within_of_mem_spans`). Beside
these, every line of a block has one span for its slashes (`Note.filter_forLine`), and all spans of a
document come in the order of their places (`highlight_inPlace`).
-/

namespace ApiNotes

open Text

/-- The columns of a span are some of a line's. -/
def Span.Within (span : Span) (line : Text) : Prop :=
  0 ≤ span.start ∧ span.start < span.stop ∧ span.stop ≤ line.length

theorem Part.Within.span {part : Part} {line : Text} (within : part.Within 0 line) (number : Int)
    (group : SpanGroup) : (part.span number group).Within line := by
  obtain ⟨-, nonempty, stops⟩ := within
  simp only [Span.Within, Part.span]
  omega

/-! ## Pieces of a text -/

/-- `onward`, which begins at `start`, is the end of a text that begins at `place`. -/
def IsRest (place : Nat) (text : Text) (start : Nat) (onward : Text) : Prop :=
  place ≤ start ∧ start + onward.length = place + text.length

section

variable {text piece more onward : Text} {place start : Nat}

theorem lengths_of_run? {p : Char → Bool} (found : run? p text = some (piece, more)) :
    0 < piece.length ∧ piece.length + more.length = text.length := by
  unfold run? at found
  split at found
  · cases found
  · rename_i c tail taken
    obtain ⟨rfl, rfl⟩ := Prod.mk.inj (Option.some.inj found)
    have whole := congrArg List.length (List.takeWhile_append_dropWhile (p := p) (l := text))
    rw [List.length_append, taken] at whole
    exact ⟨by simp, whole⟩

theorem lengths_of_bracketed? {opening closing : Char}
    (found : bracketed? opening closing text = some (piece, more)) :
    0 < piece.length ∧ piece.length + more.length = text.length := by
  refine ⟨length_pos_of_bracketed? found, ?_⟩
  rw [eq_append_of_bracketed? found, List.length_append]

theorem lengths_of_word? (found : word? text = some (piece, more)) :
    0 < piece.length ∧ piece.length + more.length = text.length := by
  obtain ⟨word, -, rfl⟩ := word?_eq_some_iff.mp found
  exact ⟨List.length_pos_iff.mpr word.1, (List.length_append).symm⟩

theorem isRest_of_afterKeyword? {keyword : Keyword}
    (found : afterKeyword? keyword place text = some (start, onward)) : IsRest place text start onward := by
  simp only [afterKeyword?, bind, Option.bind_eq_some_iff] at found
  obtain ⟨after, lead, ⟨gap, later⟩, blank, same⟩ := found
  obtain ⟨rfl, rfl⟩ := Prod.mk.inj (Option.some.inj same)
  have cut : 0 < gap.length ∧ gap.length + later.length = after.length := lengths_of_run? blank
  have whole := congrArg List.length (eq_append_of_after? lead)
  rw [List.length_append] at whole
  simp only [IsRest]
  omega

/-- What follows the first piece of the end of a text is an end of it, too. -/
theorem IsRest.after (rest : IsRest place text start onward)
    (cut : 0 < piece.length ∧ piece.length + more.length = onward.length) :
    Part.Within ⟨start, piece⟩ place text ∧ IsRest place text (start + piece.length) more := by
  simp only [IsRest, Part.Within] at rest ⊢
  omega

theorem IsRest.within {part : Part} (rest : IsRest place text start onward) (inside : part.Within start onward) :
    part.Within place text := by
  simp only [IsRest, Part.Within] at rest inside ⊢
  omega

theorem isRest_self (place : Nat) (text : Text) : IsRest place text place text := ⟨Nat.le_refl place, rfl⟩

end

/-! ## Scans -/

/-- The parts that a scan finds lie in the text that it scans. -/
def ScansWithin {α : Type} (scan : Nat → Text → Option α) (parts : α → List Part) : Prop :=
  ∀ place text result, scan place text = some result → ∀ part ∈ parts result, part.Within place text

theorem ScansWithin.firstFrom {α : Type} {scan : Nat → Text → Option α} {parts : α → List Part}
    (scans : ScansWithin scan parts) {place : Nat} {text : Text} {result : α}
    (found : firstFrom scan place text = some result) : ∀ part ∈ parts result, part.Within place text := by
  obtain ⟨lead, onward, rfl, here⟩ := exists_of_firstFrom found
  intro part member
  refine IsRest.within ⟨?_, ?_⟩ (scans _ _ _ here part member)
  · omega
  · rw [List.length_append, Nat.add_assoc]

theorem scansWithin_keywordPart? : ScansWithin keywordPart? fun part => [part] := by
  intro place text result found part member
  obtain rfl := List.mem_singleton.mp member
  unfold keywordPart? at found
  split at found
  · obtain ⟨⟨word, later⟩, read, rfl⟩ := Option.map_eq_some_iff.mp found
    have cut := lengths_of_word? read
    simp only [Part.Within, List.length_cons]
    omega
  · cases found

theorem scansWithin_quotedPart? : ScansWithin quotedPart? fun part => [part] := by
  intro place text result found part member
  obtain rfl := List.mem_singleton.mp member
  obtain ⟨⟨quoted, later⟩, read, rfl⟩ := Option.map_eq_some_iff.mp found
  exact ((isRest_self place text).after (lengths_of_bracketed? read)).1

theorem scansWithin_schemePart? : ScansWithin schemePart? fun part => [part] := by
  intro place text result found part member
  obtain rfl := List.mem_singleton.mp member
  simp only [schemePart?, bind, Option.bind_eq_some_iff] at found
  obtain ⟨⟨start, onward⟩, begun, ⟨scheme, later⟩, read, same⟩ := found
  obtain rfl := Option.some.inj same
  exact ((isRest_of_afterKeyword? begun).after (lengths_of_word? read)).1

theorem scansWithin_responseSpots? : ScansWithin responseSpots? fun spots => [spots.1, spots.2] := by
  intro place text result found
  simp only [responseSpots?, bind, Option.bind_eq_some_iff] at found
  obtain ⟨⟨start, onward⟩, begun, ⟨digits, more⟩, run, ⟨gap, after⟩, blank, ⟨object, later⟩, braces, same⟩ :=
    found
  obtain rfl := Option.some.inj same
  have rest : IsRest place text start onward := by
    rcases (Option.orElse_eq_some _ _ _).mp begun with success | ⟨-, failure⟩
    · exact isRest_of_afterKeyword? success
    · exact isRest_of_afterKeyword? failure
  obtain ⟨status, rest⟩ := rest.after (lengths_of_run? run)
  obtain ⟨-, rest⟩ := rest.after (lengths_of_run? blank)
  obtain ⟨braced, -⟩ := rest.after (lengths_of_bracketed? braces)
  exact List.forall_mem_cons.mpr ⟨status, List.forall_mem_singleton.mpr braced⟩

theorem scansWithin_flagPart? : ScansWithin flagPart? fun part => [part] := by
  intro place text result found part member
  obtain rfl := List.mem_singleton.mp member
  rw [flagPart?_eq] at found
  obtain ⟨⟨gap, more⟩, blank, read⟩ := Option.bind_eq_some_iff.mp found
  obtain ⟨flag, begins, rfl⟩ := Option.map_eq_some_iff.mp read
  obtain ⟨-, rest⟩ := (isRest_self place text).after (lengths_of_run? blank)
  obtain ⟨later, split⟩ : ∃ later, more = flag ++ later := exists_of_flagStart? begins
  have nonempty : ∀ flag ∈ ["true".toList, "false".toList], 0 < flag.length := by decide
  have cut : 0 < flag.length ∧ flag.length + later.length = more.length :=
    ⟨nonempty flag (List.mem_of_find?_eq_some begins), by rw [split, List.length_append]⟩
  exact (rest.after cut).1

theorem within_of_typeStart? {place : Nat} {text more : Text} {part : Part}
    (found : typeStart? place text = some (part, more)) :
    part.Within place text ∧ IsRest place text (part.start + part.text.length) more := by
  obtain ⟨⟨gap, rest⟩, blank, read⟩ := Option.bind_eq_some_iff.mp found
  obtain ⟨⟨piece, after⟩, run, same⟩ := Option.map_eq_some_iff.mp read
  obtain ⟨rfl, rfl⟩ := Prod.mk.inj same
  obtain ⟨-, rest⟩ := (isRest_self place text).after (lengths_of_run? blank)
  exact rest.after (lengths_of_run? run)

theorem within_of_partsAfterLocation (place : Nat) (text : Text) :
    (∀ part ∈ (partsAfterLocation place text).1, part.Within place text) ∧
      ∀ part ∈ (partsAfterLocation place text).2, part.Within place text := by
  unfold partsAfterLocation
  split
  · rename_i type more found
    obtain ⟨inside, rest⟩ := within_of_typeStart? found
    refine ⟨?_, fun part flag => rest.within (scansWithin_flagPart? _ _ _ flag part (by simp))⟩
    rintro _ ⟨⟩
    exact inside
  · exact ⟨by simp, fun part flag => scansWithin_flagPart? _ _ _ flag part (by simp)⟩

def ParamSpots.parts (spots : ParamSpots) : List Part :=
  [spots.name, spots.location] ++ spots.type.toList ++ spots.required.toList

theorem scansWithin_paramSpots? : ScansWithin paramSpots? ParamSpots.parts := by
  intro place text result found part member
  rw [paramSpots?_eq] at found
  obtain ⟨⟨start, onward⟩, begun, found⟩ := Option.bind_eq_some_iff.mp found
  obtain ⟨⟨name, after⟩, run, found⟩ := Option.bind_eq_some_iff.mp found
  obtain ⟨⟨gap, more⟩, blank, found⟩ := Option.bind_eq_some_iff.mp found
  obtain ⟨⟨location, later⟩, next, rfl⟩ := Option.map_eq_some_iff.mp found
  obtain ⟨named, rest⟩ := (isRest_of_afterKeyword? begun).after (lengths_of_run? run)
  obtain ⟨-, rest⟩ := rest.after (lengths_of_run? blank)
  obtain ⟨located, rest⟩ := rest.after (lengths_of_run? next)
  obtain ⟨typed, flagged⟩ :=
    within_of_partsAfterLocation (start + name.length + gap.length + location.length) later
  simp only [ParamSpots.parts, List.mem_append, List.mem_cons, List.not_mem_nil, or_false,
    Option.mem_toList] at member
  rcases member with ((rfl | rfl) | type) | flag
  · exact named
  · exact located
  · exact rest.within (typed part type)
  · exact rest.within (flagged part flag)

def partsOfRoute (spots : Part × Option Part) : List Part :=
  spots.1 :: variablesFrom 0 spots.1.start spots.1.text ++ spots.2.toList

theorem scansWithin_routeSpots? : ScansWithin routeSpots? partsOfRoute := by
  intro place text result found part member
  rw [routeSpots?_eq] at found
  obtain ⟨⟨start, onward⟩, begun, found⟩ := Option.bind_eq_some_iff.mp found
  obtain ⟨⟨path, after⟩, run, rfl⟩ := Option.map_eq_some_iff.mp found
  obtain ⟨inside, rest⟩ := (isRest_of_afterKeyword? begun).after (lengths_of_run? run)
  simp only [partsOfRoute, List.mem_append, List.mem_cons, Option.mem_toList] at member
  rcases member with (rfl | variable_) | methods
  · exact inside
  · obtain ⟨starts, nonempty, stops⟩ := within_of_mem_variablesFrom variable_
    simp only [Part.Within] at inside ⊢
    omega
  · obtain ⟨⟨gap, more⟩, blank, read⟩ := Option.bind_eq_some_iff.mp methods
    obtain ⟨⟨braced, later⟩, brackets, rfl⟩ := Option.map_eq_some_iff.mp read
    obtain ⟨-, rest⟩ := rest.after (lengths_of_run? blank)
    exact (rest.after (lengths_of_bracketed? brackets)).1

/-! ## Spans of fields -/

namespace Field

variable {field : Field} {line : Text} {number : Int} {span : Span}

/-- The spans of what belongs to a keyword are those of parts that a scan of the line finds. -/
theorem within_of_mem_detailSpans (member : span ∈ field.detailSpans line) : span.Within line := by
  have ofPart : ∀ {part : Part} {group : SpanGroup}, part.Within 0 line →
      (part.span field.line group).Within line := fun within => within.span field.line _
  unfold detailSpans at member
  split at member
  · split at member
    · rename_i status object found
      have inside := scansWithin_responseSpots?.firstFrom found
      simp only [List.mem_cons, List.not_mem_nil, or_false] at member
      rcases member with rfl | rfl
      · exact ofPart (inside status (by simp))
      · exact ofPart (inside object (by simp))
    · cases member
  · split at member
    · rename_i spots found
      have inside := scansWithin_paramSpots?.firstFrom found
      simp only [List.mem_append, List.mem_cons, List.not_mem_nil, or_false, Option.mem_toList,
        Option.map_eq_some_iff] at member
      rcases member with ((rfl | rfl) | ⟨type, known, rfl⟩) | ⟨flag, known, rfl⟩
      · exact ofPart (inside spots.name (by simp [ParamSpots.parts]))
      · exact ofPart (inside spots.location (by simp [ParamSpots.parts]))
      · exact ofPart (inside type (by simp [ParamSpots.parts, known]))
      · exact ofPart (inside flag (by simp [ParamSpots.parts, known]))
    · cases member
  · split at member
    · rename_i path methods found
      have inside := scansWithin_routeSpots?.firstFrom found
      simp only [List.mem_append, List.mem_cons, Option.mem_toList, List.mem_map,
        Option.map_eq_some_iff] at member
      rcases member with (rfl | ⟨inner, known, rfl⟩) | ⟨brackets, known, rfl⟩
      · exact ofPart (inside path (by simp [partsOfRoute]))
      · exact ofPart (inside inner (by simp [partsOfRoute, known]))
      · exact ofPart (inside brackets (by simp [partsOfRoute, known]))
    · cases member
  · obtain ⟨scheme, found, rfl⟩ := Option.map_eq_some_iff.mp (Option.mem_toList.mp member)
    exact ofPart (scansWithin_schemePart?.firstFrom found scheme (by simp))
  · cases member

/-- The spans of a field lie on its line. -/
theorem within_of_mem_spans (read : ofLine line number = .ok (some field)) (member : span ∈ field.spans line) :
    span.Within line := by
  unfold spans at member
  rcases List.mem_append.mp member with earlier | refers
  · rcases List.mem_append.mp earlier with first | described
    · rcases List.mem_append.mp first with keyword | detail
      · obtain ⟨part, found, rfl⟩ := Option.map_eq_some_iff.mp (Option.mem_toList.mp keyword)
        exact (scansWithin_keywordPart?.firstFrom found part (by simp)).span _ _
      · exact within_of_mem_detailSpans detail
    · obtain ⟨_, -, later⟩ := Option.bind_eq_some_iff.mp (Option.mem_toList.mp described)
      obtain ⟨part, found, same⟩ := Option.bind_eq_some_iff.mp later
      cases same
      exact (scansWithin_quotedPart?.firstFrom found part (by simp)).span _ _
  · obtain ⟨reference, known, rfl⟩ := List.mem_map.mp refers
    exact (denotes_of_mem read known).1.within

end Field

/-! ## Spans of lines -/

/-- A piece stands at a place of a text, and at no earlier one. -/
def StandsFirst (piece text : Text) (place : Nat) : Prop :=
  piece <+: text.drop place ∧ ∀ earlier < place, ¬piece <+: text.drop earlier

/-- The span that a line of a block has for slashes at a place. -/
def Block.lineSpan (block : Block) (line : Text) (number : Int) (place : Nat) : Span :=
  if number = block.first then ⟨number, place, line.length, .markerLine⟩
  else ⟨number, place, place + 2, .comment⟩

namespace Block

variable {block : Block} {marker line : Text} {lines : List Text} {number : Int} {place : Nat} {span : Span}

theorem commentSpan?_eq_some_iff : block.commentSpan? line number = some span ↔
    ∃ place, StandsFirst ['/', '/'] line place ∧ span = block.lineSpan line number place := by
  simp only [commentSpan?, StandsFirst, ← find?_eq_some_iff]
  cases find? ['/', '/'] line with
  | none => simp
  | some place => simp [lineSpan, eq_comm]

theorem line_lineSpan (block : Block) (line : Text) (number : Int) (place : Nat) :
    (block.lineSpan line number place).line = number := by
  unfold lineSpan
  split_ifs <;> rfl

theorem within_lineSpan (stands : StandsFirst ['/', '/'] line place) :
    (block.lineSpan line number place).Within line := by
  have slashes := stands.1.length_le
  rw [List.length_drop, List.length_cons, List.length_cons, List.length_nil] at slashes
  unfold lineSpan
  split_ifs <;> simp only [Span.Within] <;> omega

/-- The spans of the lines of a block, without those of fields. -/
def lineSpans (block : Block) (lines : List Text) : List Span :=
  (block.linesOf lines).filterMap fun entry => block.commentSpan? entry.1 entry.2

theorem mem_lineSpans_iff : span ∈ block.lineSpans lines ↔ ∃ number line place,
    lineAt? lines number = some line ∧ block.contains number = true ∧
      StandsFirst ['/', '/'] line place ∧ span = block.lineSpan line number place := by
  simp only [lineSpans, List.mem_filterMap, Prod.exists, mem_linesOf_iff, commentSpan?_eq_some_iff]
  constructor
  · rintro ⟨line, number, ⟨found, contained⟩, place, stands, same⟩
    exact ⟨number, line, place, found, contained, stands, same⟩
  · rintro ⟨number, line, place, found, contained, stands, same⟩
    exact ⟨line, number, ⟨found, contained⟩, place, stands, same⟩

theorem lineSpans_ascending (block : Block) (lines : List Text) :
    (block.lineSpans lines).Pairwise fun a b => a.line < b.line := by
  refine List.Pairwise.filterMap _ ?_ ((numbered_ascending lines).filter _)
  intro entry other before first made second again
  rw [line_of_commentSpan made, line_of_commentSpan again]
  exact Int.ofNat_lt.mpr before

/-- All lines of all blocks have spans on lines of their own. -/
theorem lineSpans_nodup (marker : Text) (lines : List Text) :
    (((ofLines marker lines).flatMap (·.lineSpans lines)).map (·.line)).Nodup := by
  suffices ascending : ((ofLines marker lines).flatMap (·.lineSpans lines)).Pairwise fun a b => a.line < b.line by
    exact List.pairwise_map.mpr (ascending.imp fun before => Int.ne_of_lt before)
  refine List.pairwise_flatMap.mpr ⟨fun block _ => block.lineSpans_ascending lines, ?_⟩
  refine (ofLines_ascending marker lines).imp fun {a b} before first inside second there => ?_
  obtain ⟨-, gap, below, above, -⟩ := before
  obtain ⟨number, line, place, -, contained, -, rfl⟩ := mem_lineSpans_iff.mp inside
  obtain ⟨other, text, spot, -, holds, -, rfl⟩ := mem_lineSpans_iff.mp there
  rw [line_lineSpan, line_lineSpan]
  simp only [contains, decide_eq_true_eq] at contained holds
  omega

end Block

theorem Field.isForLine_of_mem_spans {field : Field} {line : Text} {span : Span}
    (member : span ∈ field.spans line) : span.group.isForLine = false := by
  rcases cases_of_mem_spans member with keyword | has | description | ⟨reference, -, rfl⟩
  · rw [keyword]
    rfl
  · exact SpanGroup.isForLine_of_isPart (Detail.isPart_of_hasPart has)
  · rw [description]
    rfl
  · rfl

/-- The spans of a note that are there for its lines. -/
theorem Note.filter_forLine (note : Note) (lines : List Text) :
    (note.spans lines).filter (·.group.isForLine) = note.block.lineSpans lines := by
  rw [spans, List.filter_append]
  refine (congrArg₂ (· ++ ·) (List.filter_eq_self.mpr ?_) (List.filter_eq_nil_iff.mpr ?_)).trans
    (List.append_nil _)
  · intro span member
    obtain ⟨_, -, made⟩ := List.mem_filterMap.mp member
    exact Block.isForLine_of_commentSpan made
  · intro span member
    obtain ⟨field, -, inside⟩ := List.mem_flatMap.mp member
    rw [Field.isForLine_of_mem_spans inside]
    exact Bool.false_ne_true

/-! ## Spans of a document -/

/-- One span does not come after another: by line, then by start, then by end. -/
def Span.NotAfter (a b : Span) : Prop :=
  a.line < b.line ∨ a.line = b.line ∧ (a.start < b.start ∨ a.start = b.start ∧ a.stop ≤ b.stop)

theorem Span.sort_pairwise (spans : List Span) : (Ordered.sort le spans).Pairwise NotAfter := by
  have sorted : (Ordered.sort le spans).Pairwise fun a b => le a b = true := by
    refine Ordered.sort_pairwise (fun a b => ?_) (fun a b c ab bc => ?_) spans
    · simp only [le, Bool.or_eq_true, decide_eq_true_eq]
      omega
    · simp only [le, decide_eq_true_eq] at ab bc ⊢
      omega
  exact sorted.imp of_decide_eq_true

/-- A line of a block has one span that is there for the line. -/
theorem Note.filter_forLine_eq_singleton {marker line : Text} {lines : List Text} {notes : List Note}
    (read : ofLines marker lines = .ok notes) {block : Block} (member : block ∈ Block.ofLines marker lines)
    {number place : Nat} (found : lineAt? lines number = some line) (contained : block.contains number = true)
    (stands : StandsFirst ['/', '/'] line place) :
    (Ordered.sort Span.le (notes.flatMap (·.spans lines))).filter
        (fun span => span.line = (number : Int) && span.group.isForLine) =
      [block.lineSpan line number place] := by
  have forLines : (notes.flatMap (·.spans lines)).filter (·.group.isForLine) =
      (Block.ofLines marker lines).flatMap (·.lineSpans lines) := by
    rw [List.filter_flatMap, ← map_block read, List.flatMap_map]
    exact List.flatMap_congr fun note _ => note.filter_forLine lines
  have own : block.lineSpan line number place ∈ (Block.ofLines marker lines).flatMap (·.lineSpans lines) :=
    List.mem_flatMap.mpr
      ⟨block, member, Block.mem_lineSpans_iff.mpr ⟨number, line, place, found, contained, stands, rfl⟩⟩
  have only := filter_eq_singleton (Block.lineSpans_nodup marker lines) own
  rw [Block.line_lineSpan, ← forLines, List.filter_filter] at only
  exact List.perm_singleton.mp (only ▸ (Ordered.sort_perm Span.le (notes.flatMap (·.spans lines))).filter _)

/-- The spans in a group for lines that has a name of its own. -/
theorem spansNamed_forLine {spans : List Span} {number : Int} {span : Span}
    (only : spans.filter (fun span => span.line = number && span.group.isForLine) = [span])
    (group : SpanGroup) (isFixed : group.isFixed = true) (forLine : group.isForLine = true) :
    spansNamed spans number group.text = if span.group = group then [span] else [] := by
  have narrowed : spansNamed spans number group.text =
      (spans.filter fun span => span.line = number && span.group.isForLine).filter (·.group = group) := by
    rw [List.filter_filter, spansNamed]
    refine List.filter_congr fun other _ => ?_
    rw [Bool.eq_iff_iff]
    simp only [SpanGroup.text_eq_iff group isFixed, Bool.and_eq_true, decide_eq_true_eq]
    constructor
    · rintro ⟨here, rfl⟩
      exact ⟨rfl, here, forLine⟩
    · rintro ⟨same, here, -⟩
      exact ⟨here, same⟩
  rw [narrowed, only, List.filter_singleton]
  simp

/-- Every span of a document is on a line of a block, in columns of that line and at least one wide, and the
spans ascend by line, start and end. The first line of a block has one span for the line, from its first
slashes to its end, and every other line of the block one that covers its first slashes. -/
theorem highlight_inPlace {marker : Text} {lines : List Text} {notes : List Note}
    (read : Note.ofLines marker lines = .ok notes) : ∃ spans, highlight marker lines = .ok spans ∧
      (∀ span ∈ spans, (∃ block ∈ Block.ofLines marker lines, block.contains span.line = true) ∧
        ∃ line, lineAt? lines span.line.toNat = some line ∧ span.Within line) ∧
      spans.Pairwise Span.NotAfter ∧
      ∀ block ∈ Block.ofLines marker lines, ∀ number, block.contains number = true →
        ∃ line place, lineAt? lines number.toNat = some line ∧ StandsFirst "//".toList line place ∧
          (number = block.first →
            spansNamed spans number "godoc_line".toList = [⟨number, place, line.length, .markerLine⟩] ∧
              spansNamed spans number "comment".toList = []) ∧
          (number ≠ block.first →
            spansNamed spans number "comment".toList = [⟨number, place, place + 2, .comment⟩] ∧
              spansNamed spans number "godoc_line".toList = []) := by
  refine ⟨Ordered.sort Span.le (notes.flatMap (·.spans lines)), ?_, fun span member => ?_,
    Span.sort_pairwise _, fun block member number contained => ?_⟩
  · simp [highlight, read, bind, Except.bind, pure, Except.pure]
  · obtain ⟨note, known, inside⟩ := List.mem_flatMap.mp ((Ordered.sort_perm _ _).mem_iff.mp member)
    refine ⟨⟨note.block, (Note.ofBlock_of_mem read known).1, Note.contains_of_mem_spans read known inside⟩, ?_⟩
    rcases List.mem_append.mp inside with comment | described
    · obtain ⟨number, line, place, found, -, stands, rfl⟩ := Block.mem_lineSpans_iff.mp comment
      exact ⟨line, by rwa [Block.line_lineSpan], Block.within_lineSpan stands⟩
    · obtain ⟨field, listed, there⟩ := List.mem_flatMap.mp described
      obtain ⟨line, found, same, made⟩ :=
        Note.exists_line_of_mem_fields read (List.mem_flatMap.mpr ⟨note, known, listed⟩)
      rw [same] at there
      exact ⟨line, by rwa [Field.line_of_mem_spans there], Field.within_of_mem_spans made there⟩
  · obtain ⟨number, line, rfl, found, comment⟩ := Block.exists_comment member contained
    obtain ⟨place, slashes⟩ := Option.isSome_iff_exists.mp (find?_slashes_isSome comment)
    have stands : StandsFirst ['/', '/'] line place := find?_eq_some_iff.mp slashes
    have only := Note.filter_forLine_eq_singleton read member found contained stands
    have marked := spansNamed_forLine only .markerLine rfl rfl
    have commented := spansNamed_forLine only .comment rfl rfl
    refine ⟨line, place, found, stands, fun first => ?_, fun later => ?_⟩
    · rw [Block.lineSpan, if_pos first] at marked commented
      exact ⟨marked, commented⟩
    · rw [Block.lineSpan, if_neg later] at marked commented
      exact ⟨commented, marked⟩

/-- A block of indented lines with slashes in its first text, after a line of code. -/
def indentedLines : List Text :=
  ["func Get()", "\t// Get godoc // one", "\t// @Router /a/\x7bid\x7d [get]"].map String.toList

def indentedNotes : List Note :=
  [⟨⟨2, 3⟩, [⟨3, .router "/a/\x7bid\x7d".toList ["get".toList], "/a/\x7bid\x7d [get]".toList, none, []⟩]⟩]

/-- The first line is coloured from its tab on, the second between its tab and its text. -/
theorem highlight_inPlace_small : Note.ofLines defaultMarker indentedLines = .ok indentedNotes ∧
    ∃ spans, highlight defaultMarker indentedLines = .ok spans ∧
      (∀ span ∈ spans, ∃ line, lineAt? indentedLines span.line.toNat = some line ∧ span.Within line) ∧
      spansNamed spans 2 "godoc_line".toList = [⟨2, 1, 20, .markerLine⟩] ∧
      spansNamed spans 3 "comment".toList = [⟨3, 1, 3, .comment⟩] := by
  have read : Note.ofLines defaultMarker indentedLines = .ok indentedNotes := by decide +kernel
  have member : (⟨2, 3⟩ : Block) ∈ Block.ofLines defaultMarker indentedLines := by decide +kernel
  obtain ⟨spans, highlighted, inside, -, slashes⟩ := highlight_inPlace read
  have place : ∀ (text : Text) {number : Nat} {line : Text} {spot : Nat},
      lineAt? indentedLines number = some text → find? ['/', '/'] text = some 1 →
      lineAt? indentedLines number = some line → StandsFirst "//".toList line spot → line = text ∧ spot = 1 := by
    intro text number line spot known first found stands
    obtain rfl := Option.some.inj (found.symm.trans known)
    exact ⟨rfl, Option.some.inj ((find?_eq_some_iff.mpr stands).symm.trans first)⟩
  refine ⟨read, spans, highlighted, fun span there => (inside span there).2, ?_, ?_⟩
  · obtain ⟨line, spot, found, stands, marked, -⟩ := slashes ⟨2, 3⟩ member 2 (by decide)
    obtain ⟨rfl, rfl⟩ := place "\t// Get godoc // one".toList rfl (by decide) found stands
    exact (marked rfl).1
  · obtain ⟨line, spot, found, stands, -, commented⟩ := slashes ⟨2, 3⟩ member 3 (by decide)
    obtain ⟨rfl, rfl⟩ := place "\t// @Router /a/\x7bid\x7d [get]".toList rfl (by decide) found stands
    exact (commented (by decide)).1

end ApiNotes
