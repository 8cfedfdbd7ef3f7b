import ApiNotes.Note.Reading
import Mathlib.Data.List.Chain
import Mathlib.Data.List.TakeWhile

/-!
# Texts put together with blanks

What the operations on blanks and quotes make of a text that is written as pieces with blanks
between them: the ends of a text (`StartsFirm`, `EndsFirm`), its words, and the first quote that
follows a blank (`cutAtQuote?_eq_some_iff`).
-/

namespace ApiNotes

namespace Text

variable {text gap rest piece : Text} {c : Char}

/-! ## Where a run of characters stops -/

theorem takeWhile_append_stop {p : Char → Bool} (run : ∀ c ∈ piece, p c = true)
    (stop : ∀ c ∈ rest.head?, p c = false) : (piece ++ rest).takeWhile p = piece := by
  rw [List.takeWhile_append_of_pos run]
  cases rest with
  | nil => simp
  | cons c rest => simp [stop c rfl]

theorem dropWhile_append_stop {p : Char → Bool} (run : ∀ c ∈ piece, p c = true)
    (stop : ∀ c ∈ rest.head?, p c = false) : (piece ++ rest).dropWhile p = rest := by
  rw [List.dropWhile_append_of_pos run]
  cases rest with
  | nil => rfl
  | cons c rest => simp [stop c rfl]

theorem takeWhile_ne_append (absent : c ∉ piece) (rest : Text) :
    (piece ++ c :: rest).takeWhile (· ≠ c) = piece := by
  refine takeWhile_append_stop (fun d member => decide_eq_true fun same => ?_) (by simp)
  exact absent (same ▸ member)

theorem dropWhile_ne_append (absent : c ∉ piece) (rest : Text) :
    (piece ++ c :: rest).dropWhile (· ≠ c) = c :: rest := by
  refine dropWhile_append_stop (fun d member => decide_eq_true fun same => ?_) (by simp)
  exact absent (same ▸ member)

theorem head?_append_of_ne_nil (nonempty : piece ≠ []) : (piece ++ rest).head? = piece.head? := by
  cases piece with
  | nil => exact absurd rfl nonempty
  | cons c piece => rfl

theorem getLast?_append_of_ne_nil (nonempty : piece ≠ []) :
    (rest ++ piece).getLast? = piece.getLast? := by
  rw [List.getLast?_append, List.getLast?_eq_some_getLast nonempty]
  rfl

/-! ## Which characters are blank -/

/-- The code points of all blanks. -/
def blankCodes : List Nat :=
  [9, 10, 11, 12, 13, 28, 29, 30, 31, 32, 0x85, 0xA0, 0x1680, 0x2000, 0x2001, 0x2002, 0x2003, 0x2004,
    0x2005, 0x2006, 0x2007, 0x2008, 0x2009, 0x200A, 0x2028, 0x2029, 0x202F, 0x205F, 0x3000]

theorem mem_blankCodes_of_isBlank (blank : isBlank c = true) : c.toNat ∈ blankCodes := by
  simp only [isBlank, Bool.or_eq_true, Bool.and_eq_true, decide_eq_true_eq, beq_iff_eq] at blank
  simp only [blankCodes, List.mem_cons, List.not_mem_nil, or_false]
  omega

/-- What holds of each of them holds of every blank. -/
theorem forall_blank {p : Char → Bool} (each : ∀ code ∈ blankCodes, p (Char.ofNat code) = true)
    (blank : isBlank c = true) : p c = true := by
  have holds := each c.toNat (mem_blankCodes_of_isBlank blank)
  rwa [Char.ofNat_toNat] at holds

theorem isWord_of_isBlank (blank : isBlank c = true) : isWord c = false := by
  have other := forall_blank (p := fun c => !isWord c) (by decide +kernel) blank
  simpa using other

theorem isDigit_of_isBlank (blank : isBlank c = true) : isDigit c = false := by
  have other := forall_blank (p := fun c => !isDigit c) (by decide +kernel) blank
  simpa using other

/-- A text of white space. -/
def AllBlank (text : Text) : Prop := ∀ c ∈ text, isBlank c = true

instance (text : Text) : Decidable (AllBlank text) := List.decidableBAll _ text

theorem isBlank_of_isWord (word : isWord c = true) : isBlank c = false := by
  refine Bool.eq_false_iff.mpr fun blank => ?_
  rw [isWord_of_isBlank blank] at word
  cases word

theorem isBlank_of_isDigit (digit : isDigit c = true) : isBlank c = false := by
  refine Bool.eq_false_iff.mpr fun blank => ?_
  rw [isDigit_of_isBlank blank] at digit
  cases digit

/-! ## The ends of a text -/

/-- There is no blank at the beginning. -/
def StartsFirm (text : Text) : Prop := ∀ c ∈ text.head?, isBlank c = false

/-- There is no blank at the end. -/
def EndsFirm (text : Text) : Prop := ∀ c ∈ text.getLast?, isBlank c = false

theorem StartsFirm.append (firm : StartsFirm piece) (nonempty : piece ≠ []) :
    StartsFirm (piece ++ rest) := by
  rw [StartsFirm, head?_append_of_ne_nil nonempty]
  exact firm

theorem EndsFirm.append (firm : EndsFirm piece) (nonempty : piece ≠ []) (rest : Text) :
    EndsFirm (rest ++ piece) := by
  rw [EndsFirm, getLast?_append_of_ne_nil nonempty]
  exact firm

theorem startsFirm_of_forall (unbroken : ∀ c ∈ text, isBlank c = false) : StartsFirm text :=
  fun c first => unbroken c (List.mem_of_mem_head? first)

theorem endsFirm_of_forall (unbroken : ∀ c ∈ text, isBlank c = false) : EndsFirm text :=
  fun c last => unbroken c (List.mem_of_mem_getLast? last)

theorem endsFirm_concat (text : Text) (firm : isBlank c = false) : EndsFirm (text ++ [c]) := by
  intro d last
  rw [List.getLast?_concat] at last
  cases last
  exact firm

theorem EndsFirm.cons (firm : EndsFirm text) (solid : isBlank c = false) : EndsFirm (c :: text) := by
  cases text with
  | nil => exact endsFirm_concat [] solid
  | cons d text => exact firm.append (by simp) [c]

theorem EndsFirm.tail (firm : EndsFirm (c :: text)) : EndsFirm text := by
  intro d last
  refine firm d ?_
  cases text with
  | nil => cases last
  | cons e text => rwa [List.getLast?_cons_cons]

/-- A run of characters that are no blanks stops at a gap. -/
theorem stops_at_gap (blank : AllBlank gap) (apart : gap ≠ []) {p : Char → Bool}
    (other : ∀ c, isBlank c = true → p c = false) (rest : Text) :
    ∀ c ∈ (gap ++ rest).head?, p c = false := by
  intro c first
  rw [head?_append_of_ne_nil apart] at first
  exact other c (blank c (List.mem_of_mem_head? first))

theorem trimLeft_append (blank : AllBlank gap) (text : Text) :
    trimLeft (gap ++ text) = trimLeft text := List.dropWhile_append_of_pos blank

theorem StartsFirm.trimLeft (firm : StartsFirm text) : trimLeft text = text := by
  cases text with
  | nil => rfl
  | cons c text => simp [Text.trimLeft, firm c rfl]

theorem exists_trimLeft (text : Text) : ∃ gap, AllBlank gap ∧ text = gap ++ trimLeft text :=
  ⟨text.takeWhile isBlank, fun _ member => List.mem_takeWhile_imp member,
    List.takeWhile_append_dropWhile.symm⟩

theorem startsFirm_trimLeft (text : Text) : StartsFirm (trimLeft text) := by
  intro c first
  induction text with
  | nil => cases first
  | cons d text ih =>
    by_cases blank : isBlank d = true
    · exact ih (by simpa [Text.trimLeft, blank] using first)
    · obtain rfl : d = c := by simpa [Text.trimLeft, blank] using first
      simpa using blank

theorem EndsFirm.trimRight (firm : EndsFirm text) : trimRight text = text := by
  have reversed : StartsFirm text.reverse := by
    intro c first
    exact firm c (by rwa [List.head?_reverse] at first)
  rw [Text.trimRight]
  exact (congrArg List.reverse reversed.trimLeft).trans text.reverse_reverse

theorem exists_trimRight (text : Text) : ∃ gap, AllBlank gap ∧ text = trimRight text ++ gap := by
  obtain ⟨gap, blank, split⟩ := exists_trimLeft text.reverse
  refine ⟨gap.reverse, fun c member => blank c (List.mem_reverse.mp member), ?_⟩
  calc text = text.reverse.reverse := text.reverse_reverse.symm
    _ = (gap ++ trimLeft text.reverse).reverse := by rw [← split]
    _ = trimRight text ++ gap.reverse := by rw [List.reverse_append]; rfl

theorem trimRight_append (blank : AllBlank gap) (text : Text) :
    trimRight (text ++ gap) = trimRight text := by
  have reversed : AllBlank gap.reverse := fun c member => blank c (List.mem_reverse.mp member)
  rw [trimRight, List.reverse_append]
  exact congrArg List.reverse (trimLeft_append reversed text.reverse)

theorem endsFirm_trimRight (text : Text) : EndsFirm (trimRight text) := by
  intro c last
  rw [trimRight, List.getLast?_reverse] at last
  exact startsFirm_trimLeft text.reverse c last

theorem mem_trimRight (member : c ∈ text) (firm : isBlank c = false) : c ∈ trimRight text := by
  obtain ⟨gap, blank, split⟩ := exists_trimRight text
  rw [split] at member
  rcases List.mem_append.mp member with inside | after
  · exact inside
  · rw [blank c after] at firm
    cases firm

theorem length_trimRight_le (text : Text) : (trimRight text).length ≤ text.length := by
  simpa [trimRight] using (List.dropWhile_suffix (l := text.reverse) isBlank).length_le

theorem trim_eq_self_iff : trim text = text ↔ StartsFirm text ∧ EndsFirm text := by
  constructor
  · intro same
    have left : trimLeft text = text := by
      refine (List.dropWhile_suffix isBlank).eq_of_length_le ?_
      calc text.length = (trim text).length := by rw [same]
        _ ≤ (trimLeft text).length := length_trimRight_le _
    rw [← left]
    refine ⟨startsFirm_trimLeft text, ?_⟩
    rw [left, ← same]
    exact endsFirm_trimRight _
  · rintro ⟨starts, ends⟩
    rw [trim, starts.trimLeft, ends.trimRight]

theorem trim_isInfix (text : Text) : trim text <:+: text := by
  obtain ⟨before, -, left⟩ := exists_trimLeft text
  obtain ⟨after, -, right⟩ := exists_trimRight (trimLeft text)
  exact ⟨before, after, by rw [List.append_assoc, trim, ← right, ← left]⟩

theorem trim_trim (text : Text) : trim (trim text) = trim text := by
  rw [trim_eq_self_iff]
  refine ⟨?_, endsFirm_trimRight _⟩
  intro c first
  obtain ⟨gap, -, split⟩ := exists_trimRight (trimLeft text)
  refine startsFirm_trimLeft text c ?_
  rw [split]
  exact List.mem_head?_append_of_mem_head? first

theorem trimRight_append_firm (firm : EndsFirm piece) (text : Text) :
    trimRight (piece ++ text) = piece ++ trimRight text := by
  obtain ⟨tail, blank, split⟩ := exists_trimRight text
  have ends : EndsFirm (piece ++ trimRight text) := by
    by_cases empty : trimRight text = []
    · rwa [empty, List.append_nil]
    · exact (endsFirm_trimRight text).append empty piece
  calc trimRight (piece ++ text) = trimRight (piece ++ trimRight text ++ tail) := by
        rw [List.append_assoc, ← split]
    _ = piece ++ trimRight text := by rw [trimRight_append blank, ends.trimRight]

theorem trim_append_firm (blank : AllBlank gap) (starts : StartsFirm piece) (ends : EndsFirm piece)
    (nonempty : piece ≠ []) (text : Text) : trim (gap ++ (piece ++ text)) = piece ++ trimRight text := by
  rw [trim, trimLeft_append blank, (starts.append nonempty).trimLeft, trimRight_append_firm ends]

theorem trim_ne_nil (member : c ∈ text) (firm : isBlank c = false) : trim text ≠ [] := by
  obtain ⟨indent, blank, split⟩ := exists_trimLeft text
  have kept : c ∈ trimLeft text := by
    rw [split] at member
    rcases List.mem_append.mp member with before | after
    · rw [blank c before] at firm
      cases firm
    · exact after
  exact List.ne_nil_of_mem (mem_trimRight kept firm)

theorem trim_ne_nil_iff : trim text ≠ [] ↔ ∃ c ∈ text, isBlank c = false := by
  constructor
  · intro nonempty
    by_contra none
    have blank : AllBlank text := by
      intro c member
      by_contra firm
      exact none ⟨c, member, by simpa using firm⟩
    have empty : trimLeft text = [] := List.dropWhile_eq_nil_iff.mpr blank
    rw [trim, empty] at nonempty
    exact nonempty rfl
  · rintro ⟨c, member, firm⟩
    exact trim_ne_nil member firm

/-! ## Blanks and what follows them -/

theorem afterBlanks?_append (blank : AllBlank gap) (nonempty : gap ≠ [])
    (text : Text) : afterBlanks? (gap ++ text) = some (trimLeft text) := by
  cases gap with
  | nil => exact absurd rfl nonempty
  | cons c gap =>
    rw [List.cons_append, afterBlanks?, if_pos (blank c (by simp)),
      trimLeft_append fun d member => blank d (List.mem_cons_of_mem _ member)]

theorem afterBlanks?_of_startsFirm (firm : StartsFirm text) : afterBlanks? text = none := by
  cases text with
  | nil => rfl
  | cons c text => simp [afterBlanks?, firm c rfl]

theorem afterBlanks?_eq_some_iff : afterBlanks? text = some rest ↔
    StartsFirm rest ∧ ∃ gap, gap ≠ [] ∧ AllBlank gap ∧ text = gap ++ rest := by
  constructor
  · intro found
    cases text with
    | nil => cases found
    | cons c text =>
      by_cases blank : isBlank c = true
      · obtain rfl : trimLeft text = rest := by simpa [afterBlanks?, blank] using found
        obtain ⟨gap, gapBlank, split⟩ := exists_trimLeft text
        refine ⟨startsFirm_trimLeft text, c :: gap, by simp, ?_, congrArg (c :: ·) split⟩
        exact List.forall_mem_cons.mpr ⟨blank, gapBlank⟩
      · simp [afterBlanks?, blank] at found
  · rintro ⟨firm, gap, apart, blank, rfl⟩
    rw [afterBlanks?_append blank apart, firm.trimLeft]

/-! ## Pieces -/

section

variable {p : Char → Bool}

theorem piecesBetween_cons (between : p c = true) (text : Text) :
    piecesBetween p (c :: text) = piecesBetween p text := by
  simp [piecesBetween, List.splitOnP_cons_eq_if_modifyHead, between]

theorem piecesBetween_piece (whole : ∀ c ∈ piece, p c = false) (nonempty : piece ≠ []) :
    piecesBetween p piece = [piece] := by
  simp [piecesBetween, List.splitOnP_eq_singleton whole, nonempty]

theorem piecesBetween_append (whole : ∀ c ∈ piece, p c = false) (nonempty : piece ≠ [])
    (between : p c = true) (text : Text) :
    piecesBetween p (piece ++ c :: text) = piece :: piecesBetween p text := by
  simp [piecesBetween, List.splitOnP_append_cons_of_forall_mem whole c between, nonempty]

end

theorem words_gap (blank : AllBlank gap) (text : Text) :
    words (gap ++ text) = words text := by
  induction gap with
  | nil => rfl
  | cons c gap ih =>
    exact (piecesBetween_cons (blank c (by simp)) _).trans
      (ih fun d member => blank d (List.mem_cons_of_mem _ member))

/-- The first word of a text that goes on after a gap. -/
theorem words_append (whole : ∀ c ∈ piece, isBlank c = false) (nonempty : piece ≠ [])
    (blank : AllBlank gap) (apart : gap ≠ []) (text : Text) :
    words (piece ++ (gap ++ text)) = piece :: words text := by
  cases gap with
  | nil => exact absurd rfl apart
  | cons c gap =>
    rw [words, List.cons_append, piecesBetween_append whole nonempty (blank c (by simp))]
    exact congrArg (piece :: ·) (words_gap (fun d member => blank d (List.mem_cons_of_mem _ member)) text)

theorem words_piece (whole : ∀ c ∈ piece, isBlank c = false) (nonempty : piece ≠ []) :
    words piece = [piece] := piecesBetween_piece whole nonempty

end Text

open Text

/-! ## Quotes after blanks -/

/-- No quote follows a blank. -/
def QuotesAttached (text : Text) : Prop :=
  List.IsChain (fun a b => isBlank a = true → b ≠ '"') text

instance (text : Text) : Decidable (QuotesAttached text) :=
  inferInstanceAs (Decidable (List.IsChain _ text))

section

variable {text lead gap more : Text}

theorem quotesAttached_of_unquoted (unquoted : '"' ∉ text) : QuotesAttached text := by
  refine List.isChain_iff_forall_rel_of_append_cons_cons.mpr fun a b before after split _ quote => ?_
  exact unquoted (by rw [split, quote]; simp)

theorem quotesAttached_of_forall (unbroken : ∀ c ∈ text, isBlank c = false) :
    QuotesAttached text := by
  refine List.isChain_iff_forall_rel_of_append_cons_cons.mpr fun a b before after split blank => ?_
  rw [unbroken a (by rw [split]; simp)] at blank
  cases blank

theorem QuotesAttached.append {other : Text} (attached : QuotesAttached text)
    (others : QuotesAttached other) (joint : other.head? ≠ some '"') :
    QuotesAttached (text ++ other) := by
  refine List.isChain_append.mpr ⟨attached, others, fun a _ b first _ quote => joint ?_⟩
  rw [← quote]
  exact first

theorem not_quotesAttached (blank : AllBlank gap) (apart : gap ≠ []) (lead : Text) :
    ¬QuotesAttached (lead ++ (gap ++ '"' :: more)) := by
  intro attached
  have rest := (List.isChain_append.mp attached).2.1
  have joint := (List.isChain_append.mp rest).2.2
  obtain ⟨last, ends⟩ : ∃ last, gap.getLast? = some last :=
    ⟨gap.getLast apart, List.getLast?_eq_some_getLast apart⟩
  exact joint last ends '"' rfl (blank last (List.mem_of_getLast? ends)) rfl

theorem afterOpeningQuote?_eq_some_iff : afterOpeningQuote? text = some more ↔
    ∃ gap, gap ≠ [] ∧ AllBlank gap ∧ text = gap ++ '"' :: more := by
  constructor
  · intro found
    rw [afterOpeningQuote?] at found
    split at found
    · rename_i after blanks
      obtain ⟨-, split⟩ := afterBlanks?_eq_some_iff.mp blanks
      cases found
      exact split
    · cases found
  · rintro ⟨gap, apart, blank, rfl⟩
    rw [afterOpeningQuote?, afterBlanks?_append blank apart]
    rfl

theorem cutAtQuote?_cons (c : Char) (text : Text) :
    cutAtQuote? (c :: text) = match afterOpeningQuote? (c :: text) with
      | some more => some ([], more)
      | none => (cutAtQuote? text).map fun (lead, more) => (c :: lead, more) := by
  rfl

theorem cutAtQuote?_of_some {c : Char} (here : afterOpeningQuote? (c :: text) = some more) :
    cutAtQuote? (c :: text) = some ([], more) := by
  rw [cutAtQuote?_cons, here]

theorem cutAtQuote?_of_none {c : Char} (here : afterOpeningQuote? (c :: text) = none) :
    cutAtQuote? (c :: text) = (cutAtQuote? text).map fun cut => (c :: cut.1, cut.2) := by
  rw [cutAtQuote?_cons, here]

/-- No blanks before a quote begin here. -/
theorem afterOpeningQuote?_eq_none (clear : ∀ gap more, gap ≠ [] →
    AllBlank gap → text ≠ gap ++ '"' :: more) : afterOpeningQuote? text = none := by
  refine Option.eq_none_iff_forall_ne_some.mpr fun more found => ?_
  obtain ⟨gap, apart, blank, split⟩ := afterOpeningQuote?_eq_some_iff.mp found
  exact clear gap more apart blank split

theorem cutAtQuote?_eq_none (attached : QuotesAttached text) : cutAtQuote? text = none := by
  induction text with
  | nil => rfl
  | cons c text ih =>
    have here : afterOpeningQuote? (c :: text) = none := by
      refine afterOpeningQuote?_eq_none fun gap more apart blank split => ?_
      rw [split] at attached
      exact not_quotesAttached blank apart [] attached
    rw [cutAtQuote?_of_none here, ih attached.tail]
    rfl

theorem cutAtQuote?_append (attached : QuotesAttached lead) (firm : EndsFirm lead)
    (blank : AllBlank gap) (apart : gap ≠ []) (more : Text) :
    cutAtQuote? (lead ++ (gap ++ '"' :: more)) = some (lead, more) := by
  induction lead with
  | nil =>
    have found : afterOpeningQuote? (gap ++ '"' :: more) = some more :=
      afterOpeningQuote?_eq_some_iff.mpr ⟨gap, apart, blank, rfl⟩
    cases gap with
    | nil => exact absurd rfl apart
    | cons c gap => exact cutAtQuote?_of_some found
  | cons c lead ih =>
    -- Blanks from here to a quote would end in this text, which neither ends in a blank nor has a
    -- quote after one.
    have here : afterOpeningQuote? (c :: (lead ++ (gap ++ '"' :: more))) = none := by
      refine afterOpeningQuote?_eq_none fun gap' after apart' blank' split => ?_
      have beyond : ∀ tail, gap' ≠ c :: lead ++ tail := by
        rintro tail rfl
        have ends := List.getLast?_eq_some_getLast (List.cons_ne_nil c lead)
        have inside := blank' _ (List.mem_append_left tail (List.getLast_mem (List.cons_ne_nil c lead)))
        rw [firm _ ends] at inside
        cases inside
      rcases List.append_eq_append_iff.mp (show c :: lead ++ _ = gap' ++ _ from split) with
        ⟨tail, equal, -⟩ | ⟨tail, equal, follows⟩
      · exact beyond tail equal
      · cases tail with
        | nil => exact beyond [] (by simp [equal])
        | cons d tail =>
          obtain rfl : '"' = d := (List.cons.inj follows).1
          rw [equal] at attached
          exact not_quotesAttached blank' apart' [] attached
    rw [List.cons_append, cutAtQuote?_of_none here, ih attached.tail firm.tail]
    rfl

/-- A text is cut at the first blanks before a quote. -/
theorem cutAtQuote?_eq_some_iff : cutAtQuote? text = some (lead, more) ↔
    QuotesAttached lead ∧ EndsFirm lead ∧
      ∃ gap, gap ≠ [] ∧ AllBlank gap ∧ text = lead ++ (gap ++ '"' :: more) := by
  constructor
  · intro found
    induction text generalizing lead with
    | nil => cases found
    | cons c text ih =>
      cases here : afterOpeningQuote? (c :: text) with
      | some after =>
        rw [cutAtQuote?_of_some here] at found
        obtain ⟨rfl, rfl⟩ : [] = lead ∧ after = more := by simpa using found
        exact ⟨List.isChain_nil, by simp [EndsFirm], afterOpeningQuote?_eq_some_iff.mp here⟩
      | none =>
        rw [cutAtQuote?_of_none here] at found
        obtain ⟨⟨inner, after⟩, cut, same⟩ := Option.map_eq_some_iff.mp found
        obtain ⟨rfl, rfl⟩ : c :: inner = lead ∧ after = more := by simpa using same
        obtain ⟨attached, firm, gap, apart, blank, rfl⟩ := ih cut
        -- The first character is no blank before a quote, nor, where nothing else is left, one of the gap.
        have clear : ∀ gap' more', gap' ≠ [] → AllBlank gap' →
            c :: (inner ++ (gap ++ '"' :: after)) ≠ gap' ++ '"' :: more' := by
          intro gap' more' apart' blank' split
          rw [afterOpeningQuote?_eq_some_iff.mpr ⟨gap', apart', blank', split⟩] at here
          cases here
        refine ⟨List.isChain_cons.mpr ⟨?_, attached⟩, ?_, gap, apart, blank, rfl⟩
        · intro d first blankHere quote
          obtain ⟨tail, rfl⟩ := List.head?_eq_some_iff.mp first
          exact clear [c] (tail ++ (gap ++ '"' :: after)) (by simp) (List.forall_mem_singleton.mpr blankHere)
            (by simp [quote])
        · intro d last
          cases inner with
          | nil =>
            obtain rfl : c = d := by simpa using last
            refine Bool.eq_false_iff.mpr fun blankHere => ?_
            exact clear (c :: gap) after (by simp) (List.forall_mem_cons.mpr ⟨blankHere, blank⟩) (by simp)
          | cons e inner => exact firm d (by rwa [List.getLast?_cons_cons] at last)
  · rintro ⟨attached, firm, gap, apart, blank, rfl⟩
    exact cutAtQuote?_append attached firm blank apart more

end

end ApiNotes
