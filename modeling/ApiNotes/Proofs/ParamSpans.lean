import ApiNotes.Proofs.Descriptions
import ApiNotes.Proofs.KeywordSpans

/-!
# The parts of a parameter

The parts of a parameter are its first words without the description, while its spans are looked for in
the whole line. Where blanks follow the keyword, the name and the location are found where they are read,
and so are the type, up to a quote, and the truth value, with or without a mark after it
(`KeywordLine.exists_paramSpots`).
-/

namespace ApiNotes

open Text

section

variable {text rest piece onward gap after : Text} {others : List Text}

/-! ## Words one after the other -/

/-- A word stands in a text between blanks, and `after` follows it. -/
structure WordStands (text gap piece after : Text) : Prop where
  split : text = gap ++ (piece ++ after)
  blank : AllBlank gap
  nonempty : piece ≠ []
  whole : ∀ c ∈ piece, isBlank c = false
  stops : ∀ c ∈ after.head?, isBlank c = true

/-- A text is white space or begins with a word. -/
theorem Text.words_cases (text : Text) : AllBlank text ∧ words text = [] ∨
    ∃ gap piece after, WordStands text gap piece after ∧ words text = piece :: words after := by
  obtain ⟨gap, blank, split⟩ := exists_trimLeft text
  have same : words text = words (trimLeft text) := by
    conv_lhs => rw [split]
    exact words_gap blank _
  by_cases empty : trimLeft text = []
  · left
    rw [empty, List.append_nil] at split
    exact ⟨split ▸ blank, by rw [same, empty]; rfl⟩
  right
  have firm := startsFirm_trimLeft text
  rw [same]
  generalize trimLeft text = body at split firm empty
  obtain ⟨c, more, rfl⟩ := List.exists_cons_of_ne_nil empty
  have solid : isBlank c = false := firm c rfl
  have whole : ∀ d ∈ (c :: more).takeWhile (!isBlank ·), isBlank d = false := by
    intro d member
    simpa using List.mem_takeWhile_imp member
  have nonempty : (c :: more).takeWhile (!isBlank ·) ≠ [] := by simp [solid]
  have parts : (c :: more).takeWhile (!isBlank ·) ++ (c :: more).dropWhile (!isBlank ·) = c :: more :=
    List.takeWhile_append_dropWhile
  have stops : ∀ d ∈ ((c :: more).dropWhile (!isBlank ·)).head?, isBlank d = true := by
    intro d first
    have stopped := List.head?_dropWhile_not (!isBlank ·) (c :: more)
    rw [Option.mem_def.mp first] at stopped
    simpa using stopped
  refine ⟨gap, _, _, ⟨by rw [parts, split], blank, nonempty, whole, stops⟩, ?_⟩
  conv_lhs => rw [← parts]
  cases left : (c :: more).dropWhile (!isBlank ·) with
  | nil => rw [List.append_nil, words_piece whole nonempty]; rfl
  | cons d tail =>
    have space : AllBlank [d] := List.forall_mem_singleton.mpr (stops d (by rw [left]; rfl))
    have next : words (d :: tail) = words tail := words_gap space tail
    rw [next]
    exact words_append whole nonempty space (by simp) tail

theorem Text.allBlank_of_words (none : words text = []) : AllBlank text := by
  rcases words_cases text with ⟨blank, -⟩ | ⟨_, _, _, -, some⟩
  · exact blank
  · rw [none] at some
    cases some

theorem Text.exists_of_words (read : words text = piece :: others) :
    ∃ gap after, WordStands text gap piece after ∧ words after = others := by
  rcases words_cases text with ⟨-, none⟩ | ⟨gap, first, after, stands, some⟩
  · rw [none] at read
    cases read
  · rw [some] at read
    obtain ⟨rfl, rfl⟩ := List.cons.inj read
    exact ⟨gap, after, stands, rfl⟩

/-- A text that ends with no blank has no end without words. -/
theorem Text.eq_nil_of_words {front : Text} (ends : EndsFirm (front ++ text)) (none : words text = []) :
    text = [] := by
  by_contra some
  have solid := ends.of_isSuffix (List.suffix_append front text) _ (List.getLast?_eq_some_getLast some)
  rw [allBlank_of_words none _ (List.getLast_mem some)] at solid
  cases solid

namespace WordStands

theorem ne_nil (stands : WordStands text gap piece after) : text ≠ [] := by
  rw [stands.split]
  simp [stands.nonempty]

/-- At the beginning of a text without blanks there, nothing is before the word. -/
theorem gap_eq_nil (stands : WordStands text gap piece after) (firm : StartsFirm text) : gap = [] := by
  cases gap with
  | nil => rfl
  | cons c gap =>
    have solid := firm c (by rw [stands.split]; rfl)
    rw [stands.blank c (by simp)] at solid
    cases solid

/-- Where another word ended there are blanks before the next one. -/
theorem gap_ne_nil (stands : WordStands text gap piece after) (ended : ∀ c ∈ text.head?, isBlank c = true) :
    gap ≠ [] := by
  rintro rfl
  obtain ⟨c, more, same⟩ := List.exists_cons_of_ne_nil stands.nonempty
  have space := ended c (by rw [stands.split, same]; rfl)
  rw [stands.whole c (by simp [same])] at space
  cases space

theorem run? (stands : WordStands text gap piece after) :
    ApiNotes.run? (fun c => !isBlank c) (piece ++ after) = some (piece, after) :=
  run?_append (fun c member => by simp [stands.whole c member]) stands.nonempty
    (fun c first => by simp [stands.stops c first])

theorem startsFirm (stands : WordStands text gap piece after) : StartsFirm (piece ++ after) :=
  (startsFirm_of_forall stands.whole).append stands.nonempty

/-- Whatever follows the text follows the word as well, if blanks begin it. -/
theorem append (stands : WordStands text gap piece after) (ended : ∀ c ∈ onward.head?, isBlank c = true) :
    WordStands (text ++ onward) gap piece (after ++ onward) where
  split := by rw [stands.split]; simp
  blank := stands.blank
  nonempty := stands.nonempty
  whole := stands.whole
  stops := by
    intro c first
    cases after with
    | nil => exact ended c first
    | cons d after => exact stands.stops c (by simpa using first)

end WordStands

/-! ## What follows the value -/

/-- Nothing follows but blanks, or blanks and a quote. -/
def Closes (onward : Text) : Prop :=
  AllBlank onward ∨ ∃ gap more, gap ≠ [] ∧ AllBlank gap ∧ onward = gap ++ '"' :: more

theorem Closes.ended (closes : Closes onward) : ∀ c ∈ onward.head?, isBlank c = true := by
  intro c first
  rcases closes with blank | ⟨gap, more, apart, blank, rfl⟩
  · exact blank c (List.mem_of_mem_head? first)
  · rw [head?_append_of_ne_nil apart] at first
    exact blank c (List.mem_of_mem_head? first)

theorem Closes.append {tail : Text} (closes : Closes onward) (tailBlank : AllBlank tail) :
    Closes (onward ++ tail) := by
  rcases closes with blank | ⟨gap, more, apart, blank, rfl⟩
  · left
    intro c member
    rcases List.mem_append.mp member with inside | after
    · exact blank c inside
    · exact tailBlank c after
  · exact .inr ⟨gap, more ++ tail, apart, blank, by simp⟩

/-- After the blanks there is nothing or a quote. -/
theorem Closes.blanks? (closes : Closes onward) : ApiNotes.blanks? onward = none ∨
    ∃ gap more, ApiNotes.blanks? onward = some (gap, more) ∧ (more = [] ∨ more.head? = some '"') := by
  rcases closes with blank | ⟨gap, more, apart, blank, rfl⟩
  · by_cases empty : onward = []
    · left
      rw [empty]
      rfl
    · right
      have whole : ApiNotes.blanks? (onward ++ []) = some (onward, []) :=
        blanks?_append blank empty (by simp [StartsFirm])
      rw [List.append_nil] at whole
      exact ⟨onward, [], whole, .inl rfl⟩
  · right
    have quote : StartsFirm ('"' :: more) := by
      intro c first
      cases first
      decide
    exact ⟨gap, '"' :: more, blanks?_append blank apart quote, .inr rfl⟩

/-- The value of a parameter, and what follows it. -/
theorem splitDescription_append (starts : StartsFirm rest) (ends : EndsFirm rest)
    (nonempty : (splitDescription rest).1 ≠ []) : ∃ onward, rest = (splitDescription rest).1 ++ onward ∧
      QuotesAttached (splitDescription rest).1 ∧ EndsFirm (splitDescription rest).1 ∧ Closes onward := by
  unfold splitDescription at nonempty ⊢
  cases cut : cutAtQuote? rest with
  | some found =>
    obtain ⟨lead, more⟩ := found
    obtain ⟨attached, firm, gap, apart, blank, split⟩ := cutAtQuote?_eq_some_iff.mp cut
    have begins : StartsFirm lead := by
      intro c first
      refine starts c ?_
      rw [split]
      exact List.mem_head?_append_of_mem_head? first
    dsimp only
    rw [trim_eq_self_iff.mpr ⟨begins, firm⟩]
    exact ⟨gap ++ '"' :: more, split, attached, firm, .inr ⟨gap, more, apart, blank, rfl⟩⟩
  | none =>
    rw [cut] at nonempty
    dsimp only at nonempty ⊢
    split_ifs at nonempty ⊢ with quote
    · exact absurd rfl nonempty
    · dsimp only
      rw [trim_eq_self_iff.mpr ⟨starts, ends⟩]
      exact ⟨[], by simp, cutAtQuote?_eq_none_iff.mp cut, ends, .inl (by simp [AllBlank])⟩

end

/-! ## Truth values -/

def flagText (flag : Bool) : Text := if flag then "true".toList else "false".toList

/-- A truth value and after it a character that belongs to no word. -/
def FlagWithMark (token : Text) : Prop :=
  ∃ flag c more, token = flagText flag ++ c :: more ∧ isWord c = false

/-- The truth value that a token begins with, up to where a word ends. -/
def flagStart? (token : Text) : Option Text :=
  ["true".toList, "false".toList].find? fun flag => (after? flag token).any (isWordEdge flag.getLast?)

section

variable {token onward : Text}

theorem isWord_flagText (flag : Bool) : IsWord (flagText flag) := by
  cases flag <;> exact ⟨by decide, List.all_eq_true.mp (by decide)⟩

theorem beginsWithFlag_iff (flag : Bool) :
    (after? (flagText flag) token).any (isWordEdge (flagText flag).getLast?) = true ↔
      ∃ more, token = flagText flag ++ more ∧ ∀ c ∈ more.head?, isWord c = false := by
  have last : (flagText flag).getLast?.any isWord = true := by cases flag <;> decide
  rw [Option.any_eq_true]
  constructor
  · rintro ⟨more, after, edge⟩
    refine ⟨more, eq_append_of_after? after, fun c first => ?_⟩
    rw [isWordEdge, last, Option.mem_def.mp first] at edge
    simpa using edge
  · rintro ⟨more, rfl, stops⟩
    refine ⟨more, after?_append _ _, ?_⟩
    rw [isWordEdge, last]
    cases more with
    | nil => rfl
    | cons c more => simp [stops c rfl]

theorem flagStart?_eq (token : Text) : flagStart? token =
    [flagText true, flagText false].find? fun flag =>
      (after? flag token).any (isWordEdge flag.getLast?) := rfl

theorem flag?_eq (token : Text) : flag? token =
    if token = flagText true then some true else if token = flagText false then some false else none := rfl

/-- Blanks after a token make no difference. -/
theorem flagStart?_append (whole : ∀ c ∈ token, isBlank c = false)
    (ended : ∀ c ∈ onward.head?, isBlank c = true) : flagStart? (token ++ onward) = flagStart? token := by
  have same : ∀ flag : Bool,
      (after? (flagText flag) (token ++ onward)).any (isWordEdge (flagText flag).getLast?) =
        (after? (flagText flag) token).any (isWordEdge (flagText flag).getLast?) := by
    intro flag
    rw [Bool.eq_iff_iff, beginsWithFlag_iff, beginsWithFlag_iff]
    constructor
    · rintro ⟨more, split, stops⟩
      rcases List.append_eq_append_iff.mp split with ⟨excess, equal, beyond⟩ | ⟨more', equal, follows⟩
      · -- The truth value does not go on after the token, where a blank stands.
        cases excess with
        | nil => exact ⟨[], by simpa using equal.symm, by simp⟩
        | cons c excess =>
          have space := ended c (by rw [beyond]; rfl)
          have word := (isWord_flagText flag).2 c (by simp [equal])
          rw [isWord_of_isBlank space] at word
          cases word
      · refine ⟨more', equal, fun c first => stops c ?_⟩
        rw [follows]
        exact List.mem_head?_append_of_mem_head? first
    · rintro ⟨more, rfl, stops⟩
      refine ⟨more ++ onward, by simp, fun c first => ?_⟩
      cases more with
      | nil => exact isWord_of_isBlank (ended c first)
      | cons d more => exact stops c (by simpa using first)
  rw [flagStart?_eq, flagStart?_eq]
  simp only [List.find?, same]

theorem flagStart?_of_not_flagWithMark (clear : ¬FlagWithMark token) :
    flagStart? token = (flag? token).map flagText := by
  have whole : ∀ flag : Bool,
      (after? (flagText flag) token).any (isWordEdge (flagText flag).getLast?) =
        decide (token = flagText flag) := by
    intro flag
    rw [Bool.eq_iff_iff, beginsWithFlag_iff, decide_eq_true_iff]
    constructor
    · rintro ⟨more, split, stops⟩
      cases more with
      | nil => simpa using split
      | cons c more => exact absurd ⟨flag, c, more, split, stops c rfl⟩ clear
    · rintro rfl
      exact ⟨[], by simp, by simp⟩
  rw [flagStart?_eq]
  simp only [List.find?, whole]
  by_cases yes : token = flagText true
  · rw [yes]
    rfl
  by_cases no : token = flagText false
  · rw [no]
    rfl
  · have none : flag? token = none := by
      rw [flag?_eq, if_neg yes, if_neg no]
    simp [yes, no, none]

theorem exists_of_flagStart? {flag : Text} (begins : flagStart? token = some flag) :
    ∃ more, token = flag ++ more := by
  unfold flagStart? at begins
  have found := List.find?_some begins
  obtain ⟨more, after, -⟩ := (Option.any_eq_true ..).mp found
  exact ⟨more, eq_append_of_after? after⟩

theorem FlagWithMark.flag?_eq_none (marked : FlagWithMark token) : flag? token = none := by
  obtain ⟨flag, c, more, rfl, mark⟩ := marked
  have other : ∀ flag' : Bool, flagText flag ++ c :: more ≠ flagText flag' := by
    intro flag' same
    have word := (isWord_flagText flag').2 c (by simp [← same])
    rw [mark] at word
    cases word
  rw [flag?_eq, if_neg (other true), if_neg (other false)]

theorem FlagWithMark.flagStart?_ne_none (marked : FlagWithMark token) : flagStart? token ≠ none := by
  obtain ⟨flag, c, more, rfl, mark⟩ := marked
  have begins := (beginsWithFlag_iff flag).mpr ⟨c :: more, rfl, by simpa using mark⟩
  rw [flagStart?_eq, ne_eq, List.find?_eq_none]
  intro none
  refine none (flagText flag) ?_ begins
  cases flag <;> simp

end

/-! ## The parts of a parameter -/

/-- The type after a location, and what follows it. -/
def typeStart? (place : Nat) (text : Text) : Option (Part × Text) :=
  (blanks? text).bind fun cut => (run? (fun c => !isBlank c && c ≠ '"') cut.2).map fun read =>
    (⟨place + cut.1.length, read.1⟩, read.2)

theorem flagPart?_eq (place : Nat) (text : Text) : flagPart? place text =
    (blanks? text).bind fun cut => (flagStart? cut.2).map fun flag => ⟨place + cut.1.length, flag⟩ := by
  unfold flagPart? flagStart?
  cases blanks? text with
  | none => rfl
  | some cut =>
    simp only [bind, Option.bind]
    cases ["true".toList, "false".toList].find? fun flag =>
      (after? flag cut.2).any (isWordEdge flag.getLast?) <;> rfl

section

variable {text gap piece after onward : Text}

theorem typeStart?_of_closes (closes : Closes onward) (place : Nat) : typeStart? place onward = none := by
  rcases closes.blanks? with none | ⟨gap, more, found, first⟩
  · rw [typeStart?, none]
    rfl
  · have stopped : run? (fun c => !isBlank c && c ≠ '"') more = none := by
      refine run?_eq_none fun c head => ?_
      rcases first with rfl | quote
      · cases head
      · obtain rfl : '"' = c := Option.some.inj (quote.symm.trans head)
        rfl
    rw [typeStart?, found, Option.bind_some, stopped]
    rfl

theorem flagPart?_of_closes (closes : Closes onward) (place : Nat) : flagPart? place onward = none := by
  rcases closes.blanks? with none | ⟨gap, more, found, first⟩
  · rw [flagPart?_eq, none]
    rfl
  · have stopped : flagStart? more = none := by
      rcases first with rfl | quote
      · decide
      · obtain ⟨tail, rfl⟩ := List.head?_eq_some_iff.mp quote
        rw [flagStart?_eq]
        rfl
    rw [flagPart?_eq, found, Option.bind_some, stopped]
    rfl

theorem flagPart?_word (stands : WordStands text gap piece after) (apart : gap ≠ []) (place : Nat) :
    flagPart? place text = (flagStart? piece).map fun flag => ⟨place + gap.length, flag⟩ := by
  rw [flagPart?_eq, stands.split, blanks?_append stands.blank apart stands.startsFirm, Option.bind_some,
    flagStart?_append stands.whole stands.stops]

theorem takeWhile_ne_of_not_mem {mark : Char} (absent : mark ∉ piece) :
    piece.takeWhile (· ≠ mark) = piece := by
  refine List.takeWhile_eq_self_iff.mpr fun d member => decide_eq_true fun same => ?_
  exact absent (same ▸ member)

theorem takeWhile_ne_of_mem {mark : Char} (present : mark ∈ piece) : piece.takeWhile (· ≠ mark) ≠ piece := by
  intro same
  have passed := List.takeWhile_eq_self_iff.mp same mark present
  simp at passed

/-- A word is read up to a character that it must not have. -/
theorem WordStands.run?_until (stands : WordStands text gap piece after) {mark : Char}
    (other : piece.head? ≠ some mark) : ∃ more,
      ApiNotes.run? (fun c => !isBlank c && c ≠ mark) (piece ++ after) =
        some (piece.takeWhile (· ≠ mark), more) ∧
      piece ++ after = piece.takeWhile (· ≠ mark) ++ more ∧ (mark ∉ piece → more = after) := by
  obtain ⟨c, tail, same⟩ := List.exists_cons_of_ne_nil stands.nonempty
  have first : c ≠ mark := by
    rintro rfl
    exact other (by simp [same])
  have nonempty : piece.takeWhile (· ≠ mark) ≠ [] := by simp [same, first]
  have run : ∀ d ∈ piece.takeWhile (· ≠ mark), (!isBlank d && decide (d ≠ mark)) = true := by
    intro d member
    have solid := stands.whole d ((List.takeWhile_prefix _).subset member)
    simpa [solid] using List.mem_takeWhile_imp member
  have stops : ∀ d ∈ (piece.dropWhile (· ≠ mark) ++ after).head?,
      (!isBlank d && decide (d ≠ mark)) = false := by
    intro d head
    cases left : piece.dropWhile (· ≠ mark) with
    | nil =>
      rw [left, List.nil_append] at head
      simp [stands.stops d head]
    | cons e rest =>
      have stopped := List.head?_dropWhile_not (· ≠ mark) piece
      rw [left] at stopped head
      obtain rfl : e = d := Option.some.inj head
      simp_all
  have split : piece ++ after = piece.takeWhile (· ≠ mark) ++ (piece.dropWhile (· ≠ mark) ++ after) := by
    rw [← List.append_assoc, List.takeWhile_append_dropWhile]
  refine ⟨piece.dropWhile (· ≠ mark) ++ after, ?_, split, fun absent => ?_⟩
  · rw [split]
    exact run?_append run nonempty stops
  · have nothing : piece.dropWhile (· ≠ mark) = [] := by
      refine List.dropWhile_eq_nil_iff.mpr fun d member => decide_eq_true fun found => ?_
      exact absent (found ▸ member)
    rw [nothing, List.nil_append]

/-- The type is found up to a quote. -/
theorem typeStart?_word (stands : WordStands text gap piece after) (apart : gap ≠ [])
    (unquoted : piece.head? ≠ some '"') (place : Nat) : ∃ more, typeStart? place text =
      some (⟨place + gap.length, piece.takeWhile (· ≠ '"')⟩, more) ∧
        piece ++ after = piece.takeWhile (· ≠ '"') ++ more ∧ ('"' ∉ piece → more = after) := by
  obtain ⟨more, run, split, whole⟩ := stands.run?_until unquoted
  refine ⟨more, ?_, split, whole⟩
  rw [typeStart?, stands.split, blanks?_append stands.blank apart stands.startsFirm, Option.bind_some]
  dsimp only
  rw [run]
  rfl

end

/-- What is read of a parameter is found, but for the type from a quote on and for what follows it. -/
structure ParamSpots.Show (spots : ParamSpots) (line name location : Text) (ty fourth : Option Text) :
    Prop where
  name : spots.name.StandsIn line ∧ spots.name.text = name
  location : spots.location.StandsIn line ∧ spots.location.text = location
  type : (∀ part ∈ spots.type, part.StandsIn line) ∧
    spots.type.map (·.text) = ty.map (·.takeWhile (· ≠ '"'))
  required : (∀ token ∈ ty, '"' ∉ token) → (∀ part ∈ spots.required, part.StandsIn line) ∧
    spots.required.map (·.text) = fourth.bind flagStart?

/-- The type and the truth value after a location. -/
def partsAfterLocation (place : Nat) (text : Text) : Option Part × Option Part :=
  match typeStart? place text with
  | some (part, more) => (some part, flagPart? (part.start + part.text.length) more)
  | none => (none, flagPart? place text)

theorem paramSpots?_eq (place : Nat) (text : Text) : paramSpots? place text =
    (afterKeyword? .param place text).bind fun begun =>
      (run? (fun c => !isBlank c) begun.2).bind fun name => (blanks? name.2).bind fun cut =>
        (run? (fun c => !isBlank c) cut.2).map fun location =>
          let between := begun.1 + name.1.length + cut.1.length
          let parts := partsAfterLocation (between + location.1.length) location.2
          ⟨⟨begun.1, name.1⟩, ⟨between, location.1⟩, parts.1, parts.2⟩ := by
  unfold paramSpots?
  refine Option.bind_congr fun begun _ => Option.bind_congr fun name _ => Option.bind_congr fun cut _ => ?_
  obtain ⟨gap, more⟩ := cut
  simp only [bind]
  cases run? (fun c => !isBlank c) more with
  | none => rfl
  | some location =>
    unfold partsAfterLocation typeStart?
    simp only [Option.bind_some, Option.map_some]
    cases blanks? location.2 with
    | none => rfl
    | some space =>
      simp only [Option.bind_some]
      cases run? (fun c => !isBlank c && decide (c ≠ '"')) space.2 <;> rfl

section

variable {line lead front after onward : Text}

/-- The truth value that the next word of the value begins with is found. -/
theorem flagPart?_after (ends : EndsFirm (front ++ after)) (ended : ∀ c ∈ after.head?, isBlank c = true)
    (closes : Closes onward) (whole : line = lead ++ (after ++ onward)) :
    (∀ part ∈ flagPart? lead.length (after ++ onward), part.StandsIn line) ∧
      (flagPart? lead.length (after ++ onward)).map (·.text) = (words after).head?.bind flagStart? := by
  cases listed : words after with
  | nil =>
    obtain rfl := eq_nil_of_words ends listed
    rw [List.nil_append, flagPart?_of_closes closes]
    exact ⟨by simp, rfl⟩
  | cons token more =>
    obtain ⟨gap, others, stands, -⟩ := exists_of_words listed
    rw [flagPart?_word (stands.append closes.ended) (stands.gap_ne_nil ended)]
    refine ⟨fun part member => ?_, by simp [Option.map_map, Function.comp_def]⟩
    obtain ⟨flag, begins, rfl⟩ := Option.map_eq_some_iff.mp member
    obtain ⟨tail, rfl⟩ := exists_of_flagStart? begins
    refine ⟨lead ++ gap, tail ++ (others ++ onward), by simp, ?_⟩
    rw [whole, stands.split]
    simp

/-- The type is found up to a quote, and where it has none, the truth value after it. -/
theorem exists_partsAfterLocation (ends : EndsFirm (front ++ after))
    (attached : QuotesAttached (front ++ after)) (ended : ∀ c ∈ after.head?, isBlank c = true) (closes : Closes onward)
    (whole : line = lead ++ (after ++ onward)) :
    ∃ type required, partsAfterLocation lead.length (after ++ onward) = (type, required) ∧
      ((∀ part ∈ type, part.StandsIn line) ∧
        type.map (·.text) = (words after).head?.map (·.takeWhile (· ≠ '"'))) ∧
      ((∀ token ∈ (words after).head?, '"' ∉ token) → (∀ part ∈ required, part.StandsIn line) ∧
        required.map (·.text) = (words after)[1]?.bind flagStart?) := by
  cases listed : words after with
  | nil =>
    obtain rfl := eq_nil_of_words ends listed
    rw [partsAfterLocation, List.nil_append, typeStart?_of_closes closes, flagPart?_of_closes closes]
    exact ⟨none, none, rfl, ⟨by simp, rfl⟩, fun _ => ⟨by simp, rfl⟩⟩
  | cons token others =>
    obtain ⟨gap, beyond, stands, rfl⟩ := exists_of_words listed
    have apart := stands.gap_ne_nil ended
    have unquoted : token.head? ≠ some '"' := by
      intro quote
      obtain ⟨tail, rfl⟩ := List.head?_eq_some_iff.mp quote
      rw [stands.split] at attached
      exact not_quotesAttached stands.blank apart front attached
    obtain ⟨more, found, split, plain⟩ :=
      typeStart?_word (stands.append closes.ended) apart unquoted lead.length
    rw [partsAfterLocation, found]
    refine ⟨_, _, rfl, ⟨?_, rfl⟩, fun quoteless => ?_⟩
    · intro part member
      obtain rfl := Option.some.inj member
      refine ⟨lead ++ gap, more, by simp, ?_⟩
      rw [← split, whole, stands.split]
      simp
    · -- The type is found to its end, and the fourth word looked at after it.
      have quoteless := quoteless token rfl
      have all : token.takeWhile (· ≠ '"') = token := takeWhile_ne_of_not_mem quoteless
      obtain rfl := plain quoteless
      rw [stands.split, ← List.append_assoc, ← List.append_assoc] at ends
      have flag := flagPart?_after ends stands.stops closes
        (by rw [whole, stands.split]; simp : line = (lead ++ gap ++ token) ++ (beyond ++ onward))
      rw [List.length_append, List.length_append, List.head?_eq_getElem?] at flag
      dsimp only
      rw [all, List.getElem?_cons_succ]
      exact flag

end

namespace KeywordLine

variable (written : KeywordLine)

/-- The scan for a parameter, where its name and location stand. -/
theorem paramSpots?_body (keyword : written.keyword = .param) (apart : written.gap ≠ [])
    {name gap location onward : Text} (nonempty : written.rest ≠ [])
    (first : WordStands (written.rest ++ written.tail) [] name (gap ++ (location ++ onward)))
    (second : WordStands (gap ++ (location ++ onward)) gap location onward) (between : gap ≠ []) :
    paramSpots? written.lead.length written.body =
      let parts := partsAfterLocation (written.restPlace + name.length + gap.length + location.length) onward
      some ⟨⟨written.restPlace, name⟩, ⟨written.restPlace + name.length + gap.length, location⟩, parts.1,
        parts.2⟩ := by
  have begun := written.afterKeyword?_body apart nonempty
  rw [keyword] at begun
  have split : written.rest ++ written.tail = name ++ (gap ++ (location ++ onward)) := first.split
  simp only [paramSpots?_eq, begun, Option.bind_some, split, first.run?,
    blanks?_append second.blank between second.startsFirm, second.run?, Option.map_some]

/-- Where blanks follow the keyword, the parts of a parameter are found where they are read. -/
theorem exists_paramSpots (keyword : written.keyword = .param) (apart : written.gap ≠ [])
    {name location : Text} {more : List Text}
    (listed : words (splitDescription written.rest).1 = name :: location :: more) :
    ∃ spots, firstFrom paramSpots? 0 written.line = some spots ∧
      spots.name.start = written.restPlace ∧
      spots.Show written.line name location more.head? more[1]? := by
  have filled : (splitDescription written.rest).1 ≠ [] := by
    intro none
    rw [none] at listed
    cases listed
  obtain ⟨onward, split, attached, ends, closing⟩ :=
    splitDescription_append written.starts written.ends filled
  have closes := closing.append written.tailBlank
  generalize (splitDescription written.rest).1 = value at *
  have nonempty : written.rest ≠ [] := by simp [split, filled]
  have starts : StartsFirm value := by
    intro c first
    refine written.starts c ?_
    rw [split]
    exact List.mem_head?_append_of_mem_head? first
  -- The value is taken apart word by word, and each word found in the line.
  obtain ⟨indent, afterName, first, later⟩ := exists_of_words listed
  obtain rfl := first.gap_eq_nil starts
  obtain ⟨gap, after, second, rfl⟩ := exists_of_words later
  have between := second.gap_ne_nil first.stops
  have valueSplit : value = (name ++ gap ++ location) ++ after := by
    rw [first.split, second.split]
    simp
  have firstRaw := first.append closes.ended
  have secondRaw := second.append closes.ended
  rw [← List.append_assoc, ← split, second.split] at firstRaw
  rw [second.split] at secondRaw
  simp only [List.append_assoc] at firstRaw secondRaw
  have found := written.paramSpots?_body keyword apart nonempty firstRaw secondRaw between
  have raw : written.rest ++ written.tail =
      name ++ (gap ++ (location ++ (after ++ (onward ++ written.tail)))) := firstRaw.split
  rw [valueSplit] at ends attached
  obtain ⟨before, place, whole⟩ : ∃ before : Text,
      before.length = written.restPlace + name.length + gap.length + location.length ∧
        written.line = before ++ (after ++ (onward ++ written.tail)) := by
    refine ⟨written.lead ++ '@' :: written.keyword.text ++ written.gap ++ name ++ gap ++ location, ?_, ?_⟩
    · simp [restPlace]
      omega
    · rw [written.line_eq, raw]
      simp
  obtain ⟨type, required, parts, types, flags⟩ :=
    exists_partsAfterLocation ends attached second.stops closes whole
  rw [place] at parts
  rw [parts] at found
  refine ⟨_, written.firstFrom_eq looksForSign_paramSpots? found, rfl, ⟨?_, rfl⟩, ⟨?_, rfl⟩, types, flags⟩
  · exact written.standsIn [] _ raw rfl
  · refine written.standsIn (name ++ gap) (after ++ (onward ++ written.tail)) ?_ ?_
    · simp [raw]
    · simp [Nat.add_assoc]

end KeywordLine

end ApiNotes
