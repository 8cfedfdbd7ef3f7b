import ApiNotes.Go.Types
import ApiNotes.Proofs.Sightings

/-!
# Readers at the end of a line

What each reader of a line makes of blanks at its end. A reader that takes something off the front hands
them on with the rest (`Text.after?_append_gap`, `commentText?_append_gap`); whatever is made of the rest
does without them (`Field.ofLine_append_gap`, `Go.typeDecl?_append_gap`,
`Go.BraceScan.line_append_gap`).
-/

namespace ApiNotes

namespace Text

variable {α : Type} {text gap lead piece : Text}

/-! ## Texts with a gap at the end -/

theorem ne_of_isBlank {c d : Char} (blank : isBlank c = true) (solid : isBlank d = false) : c ≠ d := by
  rintro rfl
  rw [blank] at solid
  cases solid

theorem EndsFirm.not_allBlank (firm : EndsFirm piece) (nonempty : piece ≠ []) : ¬AllBlank piece := by
  intro blank
  have solid := firm _ (List.getLast?_eq_some_getLast nonempty)
  rw [blank _ (List.getLast_mem nonempty)] at solid
  cases solid

theorem EndsFirm.prefix_append_gap_iff (firm : EndsFirm piece) (blank : AllBlank gap) (text : Text) :
    piece <+: text ++ gap ↔ piece <+: text := by
  refine ⟨fun starts => ?_, fun starts => starts.trans (List.prefix_append text gap)⟩
  obtain within | ⟨tail, rfl⟩ := List.prefix_or_prefix_of_prefix starts (List.prefix_append text gap)
  · exact within
  · have inGap : tail <+: gap := (List.prefix_append_right_inj text).mp starts
    by_cases empty : tail = []
    · simp [empty]
    · have tailFirm : EndsFirm tail := by rwa [EndsFirm, getLast?_append_of_ne_nil empty] at firm
      exact absurd (fun c member => blank c (inGap.subset member)) (tailFirm.not_allBlank empty)

variable (blank : AllBlank gap)
include blank

theorem trimLeft_append_gap (text : Text) :
    trimLeft (text ++ gap) = if trimLeft text = [] then [] else trimLeft text ++ gap := by
  have nothing : gap.dropWhile isBlank = [] := List.dropWhile_eq_nil_iff.mpr blank
  rw [trimLeft, List.dropWhile_append, nothing]
  simp [trimLeft]

theorem trim_append_gap (text : Text) : trim (text ++ gap) = trim text := by
  rw [trim, trimLeft_append_gap blank, trim]
  split
  · next nothing => rw [nothing]
  · exact trimRight_append blank _

/-- A piece that does not end with a blank is taken off before the gap. -/
theorem after?_append_gap (firm : EndsFirm lead) (text : Text) :
    after? lead (text ++ gap) = (after? lead text).map (· ++ gap) := by
  cases found : after? lead text with
  | some rest => rw [eq_append_of_after? found, List.append_assoc, after?_append, Option.map_some]
  | none =>
    refine Option.not_isSome_iff_eq_none.mp fun there => ?_
    have starts := startsWith_iff.mpr ((firm.prefix_append_gap_iff blank text).mp (startsWith_iff.mp there))
    rw [startsWith, found] at starts
    cases starts

theorem after?_trimLeft_append_gap (firm : EndsFirm lead) (nonempty : lead ≠ []) (text : Text) :
    after? lead (trimLeft (text ++ gap)) = (after? lead (trimLeft text)).map (· ++ gap) := by
  rw [trimLeft_append_gap blank]
  split
  · next nothing =>
    obtain ⟨c, lead, rfl⟩ := List.exists_cons_of_ne_nil nonempty
    rw [nothing]
    rfl
  · exact after?_append_gap blank firm _

/-- What is made of the rest after some blanks is the same if a missing rest is as good as an empty one. -/
theorem afterBlanks?_bind_append_gap {f : Text → Option α} (nothing : f [] = none)
    (ignores : ∀ text, f (text ++ gap) = f text) (text : Text) :
    (afterBlanks? (text ++ gap)).bind f = (afterBlanks? text).bind f := by
  cases text with
  | nil =>
    -- Only here do the two differ: the gap itself is blanks, after which nothing is left.
    cases gap with
    | nil => rfl
    | cons c gap =>
      have none : trimLeft gap = [] :=
        List.dropWhile_eq_nil_iff.mpr fun d member => blank d (List.mem_cons_of_mem c member)
      simp [afterBlanks?, blank c List.mem_cons_self, none, nothing]
  | cons c text =>
    rw [List.cons_append, afterBlanks?, afterBlanks?]
    split
    · rw [Option.bind_some, Option.bind_some, trimLeft_append_gap blank]
      split
      · next empty => rw [empty]
      · exact ignores _
    · rfl

theorem find?_append_gap (firm : EndsFirm piece) (text : Text) :
    find? piece (text ++ gap) = find? piece text := by
  have here : ∀ place, piece <+: (text ++ gap).drop place ↔ piece <+: text.drop place := by
    intro place
    rw [List.drop_append]
    exact firm.prefix_append_gap_iff (fun c member => blank c (List.mem_of_mem_drop member)) _
  exact Option.ext fun place => by simp only [find?_eq_some_iff, here]

theorem occursIn_append_gap (firm : EndsFirm piece) (text : Text) :
    occursIn piece (text ++ gap) = occursIn piece text := by
  rw [occursIn, find?_append_gap blank firm, occursIn]

theorem word?_append_gap (text : Text) :
    word? (text ++ gap) = (word? text).map (Prod.map id (· ++ gap)) := by
  have run : ∀ c ∈ text.takeWhile isWord, isWord c = true := fun _ member => List.mem_takeWhile_imp member
  have stops : ∀ c ∈ (text.dropWhile isWord ++ gap).head?, isWord c = false := by
    intro c first
    cases left : text.dropWhile isWord with
    | nil =>
      rw [left] at first
      exact isWord_of_isBlank (blank c (List.mem_of_mem_head? first))
    | cons d rest =>
      have stopped := List.head?_dropWhile_not isWord text
      rw [left] at first stopped
      obtain rfl : d = c := Option.some.inj first
      simpa using stopped
  have split : text ++ gap = text.takeWhile isWord ++ (text.dropWhile isWord ++ gap) := by
    rw [← List.append_assoc, List.takeWhile_append_dropWhile]
  rw [word?, split, takeWhile_append_stop run stops, dropWhile_append_stop run stops, word?]
  cases text.takeWhile isWord <;> rfl

end Text

open Text

variable {line gap marker word name region : Text}

theorem keywordAndRest?_of_oneLine (oneLine : '\n' ∉ line) :
    keywordAndRest? line = ((annotationText? line).bind word?).map (Prod.map id trim) := by
  simp only [keywordAndRest?, bind]
  cases annotated : annotationText? line with
  | none => rfl
  | some text =>
    rw [Option.bind_some, Option.bind_some]
    cases read : word? text with
    | none => rfl
    | some parts =>
      obtain ⟨word, more⟩ := parts
      have unbroken : '\n' ∉ (trimLeft more).dropLast := by
        intro inside
        obtain ⟨indent, inset, -, -, rfl⟩ := annotationText?_eq_some_iff.mp annotated
        obtain ⟨-, -, rfl⟩ := word?_eq_some_iff.mp read
        have inMore : '\n' ∈ more := (List.dropWhile_suffix isBlank).subset (List.mem_of_mem_dropLast inside)
        exact oneLine (by simp [inMore])
      have single : (singleLine? (trimLeft more)).map trimRight = some (trim more) := by
        rw [map_trimRight_singleLine?, if_neg unbroken, trim]
      obtain ⟨body, whole, same⟩ := Option.map_eq_some_iff.mp single
      simp [whole, same]

theorem exists_words_of_mem_qualifiedNames (member : name ∈ qualifiedNames region) :
    ∃ owner type, IsWord owner ∧ IsWord type ∧ name = owner ++ '.' :: type := by
  rw [← map_name_sightings] at member
  obtain ⟨sighting, found, rfl⟩ := List.mem_map.mp member
  obtain ⟨-, owner, type, -, owned, valid, -, same, -⟩ := (leftmostNames_sightings region).stands sighting found
  exact ⟨owner, type, owned, valid, same⟩

theorem nestingLevel_append_of_le {start : Nat} (inside : start ≤ line.length) (rest : Text) :
    nestingLevel (line ++ rest) start = nestingLevel line start := by
  have column : ¬(start : Int) < 0 := by omega
  simp only [nestingLevel, before, column, if_false, Int.toNat_natCast]
  rw [List.take_append_of_le_length inside]

variable (blank : AllBlank gap)
include blank

/-! ## Annotation lines -/

theorem commentText?_append_gap (line : Text) :
    commentText? (line ++ gap) = (commentText? line).map (· ++ gap) :=
  after?_trimLeft_append_gap blank (endsFirm_concat ['/'] rfl) (List.cons_ne_nil _ _) line

theorem annotationText?_append_gap (line : Text) :
    annotationText? (line ++ gap) = (annotationText? line).map (· ++ gap) := by
  have signed : ∀ line, annotationText? line =
      (commentText? line).bind fun text => after? ['@'] (trimLeft text) := by
    intro line
    rw [annotationText?]
    cases commentText? line with
    | none => rfl
    | some text =>
      rw [Option.map_some, Option.bind_some]
      split
      · next rest same => rw [Option.some.inj same, after?, if_pos rfl, after?]
      · next other =>
        cases start : trimLeft text with
        | nil => rfl
        | cons c rest => rw [after?, if_neg fun same => other rest (by rw [start, ← same])]
  rw [signed, signed, commentText?_append_gap blank]
  cases commentText? line with
  | none => rfl
  | some text => exact after?_trimLeft_append_gap blank (endsFirm_concat [] rfl) (List.cons_ne_nil _ _) text

theorem isComment_append_gap (line : Text) : isComment (line ++ gap) = isComment line := by
  rw [isComment, commentText?_append_gap blank, Option.isSome_map, isComment]

theorem hasKeyword_append_gap (line : Text) : hasKeyword (line ++ gap) = hasKeyword line := by
  rw [hasKeyword, annotationText?_append_gap blank, hasKeyword]
  cases annotationText? line with
  | none => rfl
  | some text => rw [Option.map_some, Option.bind_some, Option.bind_some, word?_append_gap blank, Option.isSome_map]

theorem isMarker_append_gap (firm : EndsFirm marker) (line : Text) :
    isMarker marker (line ++ gap) = isMarker marker line := by
  rw [isMarker, commentText?_append_gap blank, isMarker]
  cases commentText? line with
  | none => rfl
  | some text => exact occursIn_append_gap blank firm text

theorem keywordAndRest?_append_gap (oneLine : '\n' ∉ line) (sameLine : '\n' ∉ gap) :
    keywordAndRest? (line ++ gap) = keywordAndRest? line := by
  rw [keywordAndRest?_of_oneLine oneLine, keywordAndRest?_of_oneLine (by simp [oneLine, sameLine]),
    annotationText?_append_gap blank]
  cases annotationText? line with
  | none => rfl
  | some text =>
    rw [Option.map_some, Option.bind_some, Option.bind_some, word?_append_gap blank]
    cases word? text with
    | none => rfl
    | some parts => simp only [Option.map_some, Prod.map, id, trim_append_gap blank]

/-- The names of a region stand on a line where they stood before. -/
theorem referencesIn_append_gap (origin : Origin) (line : Text) (number : Int) (region : Text) :
    referencesIn origin (line ++ gap) number region = referencesIn origin line number region := by
  rw [referencesIn, referencesIn]
  refine List.filterMap_congr fun name member => ?_
  obtain ⟨owner, type, -, valid, rfl⟩ := exists_words_of_mem_qualifiedNames member
  have firm : EndsFirm (owner ++ '.' :: type) :=
    (valid.endsFirm.append valid.1 ['.']).append (List.cons_ne_nil _ _) owner
  rw [find?_append_gap blank firm]
  cases found : find? (owner ++ '.' :: type) line with
  | none => rfl
  | some start =>
    have inside : start ≤ line.length := by
      have long := (find?_eq_some_iff.mp found).1.length_le
      simp only [List.length_append, List.length_cons, List.length_drop] at long
      omega
    change some (Reference.mk _ _ _ _ _ _) = some (Reference.mk _ _ _ _ _ _)
    rw [nestingLevel_append_of_le inside]

theorem Field.ofLine_append_gap (oneLine : '\n' ∉ line) (sameLine : '\n' ∉ gap) (number : Int) :
    Field.ofLine (line ++ gap) number = Field.ofLine line number := by
  simp only [ofLine, keywordAndRest?_append_gap blank oneLine sameLine, ofResponse, ofParam,
    referencesIn_append_gap blank]

/-! ## Lines of code -/

namespace Go

variable {α : Type} {word line spec : Text}

theorem afterClauseWord?_bind_append_gap (valid : IsWord word) {f : Text → Option α} (nothing : f [] = none)
    (ignores : ∀ text, f (text ++ gap) = f text) (line : Text) :
    (afterClauseWord? word (line ++ gap)).bind f = (afterClauseWord? word line).bind f := by
  rw [afterClauseWord?, after?_trimLeft_append_gap blank valid.endsFirm valid.1, afterClauseWord?]
  cases after? word (trimLeft line) with
  | none => rfl
  | some text => exact afterBlanks?_bind_append_gap blank nothing ignores text

theorem packageOfLine?_append_gap (line : Text) : packageOfLine? (line ++ gap) = packageOfLine? line := by
  rw [packageOfLine?, packageOfLine?, Option.map_bind, Option.map_bind]
  refine afterClauseWord?_bind_append_gap blank isWord_package rfl (fun text => ?_) line
  rw [Function.comp_apply, word?_append_gap blank, Option.map_map, Function.comp_apply]
  rfl

theorem isGroupStart_append_gap (valid : IsWord word) (line : Text) :
    isGroupStart word (line ++ gap) = isGroupStart word line := by
  rw [isGroupStart, after?_trimLeft_append_gap blank valid.endsFirm valid.1, isGroupStart]
  cases after? word (trimLeft line) with
  | none => rfl
  | some text =>
    rw [Option.map_some, Option.map_some, Option.map_some, trimLeft_append_gap blank]
    cases start : trimLeft text with
    | nil => rfl
    | cons c rest =>
      rw [if_neg (List.cons_ne_nil c rest), List.cons_append]
      by_cases opens : c = '('
      · rw [opens]
        rfl
      · split
        · next same => exact absurd (List.cons.inj (Option.some.inj same)).1 opens
        · split
          · next same => exact absurd (List.cons.inj (Option.some.inj same)).1 opens
          · rfl

theorem isGroupEnd_append_gap (line : Text) : isGroupEnd (line ++ gap) = isGroupEnd line := by
  rw [isGroupEnd, trim_append_gap blank, isGroupEnd]

theorem typeDecl?_append_gap (spec : Text) (number : Nat) (lines : List Text) :
    typeDecl? (spec ++ gap) number lines = typeDecl? spec number lines := by
  have noBrace : '{' ∉ gap := fun member => absurd (blank _ member) (by decide)
  have braced : ∀ kind, isBraced kind (spec ++ gap) = isBraced kind spec := by
    intro kind
    simp [isBraced, noBrace]
  simp only [typeDecl?, typeSpec?, trim_append_gap blank, braced]

theorem specOfLine?_bind_append_gap (grouped : Bool) {f : Text → Option α} (nothing : f [] = none)
    (ignores : ∀ text, f (text ++ gap) = f text) (line : Text) :
    (specOfLine? grouped (line ++ gap)).bind f = (specOfLine? grouped line).bind f := by
  cases grouped with
  | true => simp only [specOfLine?, if_true, trim_append_gap blank]
  | false =>
    exact afterClauseWord?_bind_append_gap blank isWord_type nothing ignores line

end Go

/-! ## The scan for a closing brace -/

omit blank

namespace Go.BraceScan

variable {scan : BraceScan} {c : Char} {next : Option Char}

/-- What a scan has to find next: the second character of a mark of which it has read the first. A text is
not between quotes that are blanks. -/
def Awaits (scan : BraceScan) (next : Option Char) : Prop :=
  match scan.mode with
  | .opening => next = some '*'
  | .closing => next = some '/'
  | .quoted quote => isBlank quote = false
  | .code | .comment | .lineComment => True

theorem awaits_start (next : Option Char) : start.Awaits next := trivial

theorem Awaits.step (awaits : scan.Awaits (some c)) (next : Option Char) : (scan.step c next).Awaits next := by
  obtain ⟨mode, depth, opened, closed⟩ := scan
  cases mode with
  | code =>
    simp only [BraceScan.step, codeStep]
    split_ifs with _ block quote
    · trivial
    · exact (of_decide_eq_true (Bool.and_eq_true_iff.mp block).2 : next = some '*')
    · simp only [Bool.or_eq_true, decide_eq_true_eq] at quote
      rcases quote with rfl | rfl <;> rfl
    all_goals trivial
  | opening | closing | lineComment => trivial
  | comment =>
    simp only [BraceScan.step]
    split_ifs with close
    · exact (of_decide_eq_true (Bool.and_eq_true_iff.mp close).2 : next = some '/')
    · trivial
  | quoted quote =>
    simp only [BraceScan.step]
    split_ifs
    · trivial
    · exact awaits

theorem step_of_isBlank (blank : isBlank c = true) (awaits : scan.Awaits none) (next : Option Char) :
    scan.step c next = scan := by
  have other : ∀ d, isBlank d = false → c ≠ d := fun d => ne_of_isBlank blank
  obtain ⟨mode, depth, opened, closed⟩ := scan
  cases mode with
  | code => simp [step, codeStep, other '/' rfl, other '"' rfl, other '\x60' rfl, other '{' rfl, other '}' rfl]
  | opening | closing => cases awaits
  | comment => simp [step, other '*' rfl]
  | quoted quote => simp [step, other quote awaits]
  | lineComment => rfl

/-- At the end of a line a scan that goes on is in code or in a comment, so it awaits nothing. -/
theorem awaits_line (scan : BraceScan) (text : Text) (more : (scan.line text).closed = false)
    (next : Option Char) : (scan.line text).Awaits next := by
  induction text generalizing scan with
  | nil =>
    rw [line]
    split
    · next inside => simp [Awaits, inside]
    · trivial
  | cons c text ih =>
    rw [line] at more ⊢
    split at more
    · next closed =>
      rw [closed] at more
      cases more
    · next closed =>
      rw [if_neg closed]
      exact ih _ more

theorem step_append_gap (blank : AllBlank gap) (scan : BraceScan) (c : Char) (text : Text) :
    scan.step c (text ++ gap).head? = scan.step c text.head? := by
  cases text with
  | cons d text => rfl
  | nil =>
    cases gap with
    | nil => rfl
    | cons d gap =>
      have slash : d ≠ '/' := ne_of_isBlank (blank d List.mem_cons_self) rfl
      have star : d ≠ '*' := ne_of_isBlank (blank d List.mem_cons_self) rfl
      simp [step, codeStep, slash, star]

theorem line_gap (blank : AllBlank gap) (awaits : scan.Awaits none) (unclosed : scan.closed = false) :
    scan.line gap = scan.line [] := by
  induction gap with
  | nil => rfl
  | cons c gap ih =>
    calc scan.line (c :: gap) = scan.line gap := by
          rw [line, step_of_isBlank (blank c List.mem_cons_self) awaits, if_neg (by simp [unclosed])]
      _ = scan.line [] := ih fun d member => blank d (List.mem_cons_of_mem c member)

/-- A line is scanned alike with a gap at its end: no mark of two characters has a blank in it. -/
theorem line_append_gap (blank : AllBlank gap) {text : Text} (awaits : scan.Awaits text.head?)
    (unclosed : scan.closed = false) : scan.line (text ++ gap) = scan.line text := by
  induction text generalizing scan with
  | nil => exact line_gap blank awaits unclosed
  | cons c text ih =>
    rw [List.cons_append, line, line, step_append_gap blank]
    by_cases closed : (scan.step c text.head?).closed = true
    · rw [if_pos closed, if_pos closed]
    · rw [if_neg closed, if_neg closed]
      exact ih (awaits.step _) (by simpa using closed)

end Go.BraceScan

end ApiNotes
