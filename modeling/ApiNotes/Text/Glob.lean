import ApiNotes.Text.Basic

/-!
# Glob patterns

A pattern is a list of parts, each of which stands for one character or, `*`, for any number
of them; a slash is a character like any other. An unclosed bracket stands for itself, and a
range whose ends are out of order is left out.
-/

namespace ApiNotes

inductive GlobPart where
  | star
  | anyOne
  | exactly (c : Char)
  /-- One character inside one of the ranges or, if `negated`, outside all of them. -/
  | oneOf (negated : Bool) (ranges : List (Char × Char))
  deriving DecidableEq

abbrev Glob := List GlobPart

namespace Glob

/-! ## Matching -/

def accepts (part : GlobPart) (c : Char) : Bool :=
  match part with
  | .star | .anyOne => true
  | .exactly d => c == d
  | .oneOf negated ranges => negated != ranges.any fun (low, high) => low ≤ c && c ≤ high

/-- For every end of a row, whether it holds `true`. -/
def anyLater (row : List Bool) : List Bool :=
  row.foldr (fun here later => (here || later.head?.getD false) :: later) []

/-- For each end of the text, the longest first and the empty one last, whether the pattern
matches it. -/
def matchRow : Glob → Text → List Bool
  | [], text => text.foldr (fun _ later => false :: later) [true]
  | .star :: parts, text => anyLater (matchRow parts text)
  | part :: parts, text =>
    (List.zipWith (fun c later => accepts part c && later) text (matchRow parts text).tail) ++ [false]

def admits (glob : Glob) (text : Text) : Bool := (matchRow glob text).head?.getD false

/-! ## Reading patterns -/

/-- The text between an opening bracket and its closing one, and what follows. A bracket
right at the start, or right after `!`, does not close. -/
def bracketBody? (text : Text) : Option (Text × Text) :=
  let lead : Text := match text with
    | '!' :: ']' :: _ => ['!', ']']
    | '!' :: _ => ['!']
    | ']' :: _ => [']']
    | _ => []
  let more := text.drop lead.length
  match more.dropWhile (· ≠ ']') with
  | [] => none
  | _ :: rest => some (lead ++ more.takeWhile (· ≠ ']'), rest)

/-- The body of a bracket cut at the hyphens that make ranges. A hyphen makes none among the
first `skip` characters, nor at the end; after a range, two characters pass before the next. -/
def cutAtHyphens (skip : Nat) (taken : Text) : Text → List Text
  | [] => [taken.reverse]
  | c :: rest =>
    if skip = 0 && c = '-' && rest ≠ [] then taken.reverse :: cutAtHyphens 2 [] rest
    else cutAtHyphens (skip - 1) (c :: taken) rest

/-- Puts a piece before the pieces that follow it; a range between them whose ends are out of
order disappears together with its ends. -/
def joinPiece (piece : Text) : List Text → List Text
  | [] => [piece]
  | next :: later =>
    match piece.getLast?, next.head? with
    | some low, some high =>
      if high < low then (piece.dropLast ++ next.drop 1) :: later else piece :: next :: later
    | _, _ => piece :: next :: later

/-- The ranges that stand between successive pieces. -/
def rangesBetween : List Text → List (Char × Char)
  | piece :: next :: later =>
    match piece.getLast?, next.head? with
    | some low, some high => (low, high) :: rangesBetween (next :: later)
    | _, _ => rangesBetween (next :: later)
  | _ => []

/-- The ranges of a bracket: those between its pieces, and each character by itself. -/
def rangesOf (pieces : List Text) : List (Char × Char) :=
  rangesBetween pieces ++ pieces.flatten.map fun c => (c, c)

def bracket (body : Text) : GlobPart :=
  let pieces := (cutAtHyphens (if body.head? = some '!' then 2 else 1) [] body).foldr joinPiece []
  match pieces with
  | ['!'] :: next :: later => .oneOf true (('-', '-') :: rangesOf (next :: later))
  | ('!' :: piece) :: later => .oneOf true (rangesOf (piece :: later))
  | pieces => .oneOf false (rangesOf pieces)

/-- The parts of a pattern; `skip` characters belong to a bracket already read. -/
def readFrom (skip : Nat) : Text → Glob
  | [] => []
  | c :: rest =>
    match skip with
    | skip + 1 => readFrom skip rest
    | 0 =>
      if c = '*' then .star :: readFrom 0 rest
      else if c = '?' then .anyOne :: readFrom 0 rest
      else if c = '[' then
        match bracketBody? rest with
        | some (body, _) => bracket body :: readFrom (body.length + 1) rest
        | none => .exactly c :: readFrom 0 rest
      else .exactly c :: readFrom 0 rest

def read (text : Text) : Glob := readFrom 0 text

/-! ## What a pattern admits -/

theorem anyLater_cons (here : Bool) (row : List Bool) :
    anyLater (here :: row) = (here || (anyLater row).head?.getD false) :: anyLater row := rfl

theorem tail_anyLater (row : List Bool) : (anyLater row).tail = anyLater row.tail := by
  cases row <;> rfl

theorem matchRow_part {part : GlobPart} (single : part ≠ .star) (parts : Glob) (text : Text) :
    matchRow (part :: parts) text =
      List.zipWith (fun c later => accepts part c && later) text (matchRow parts text).tail ++
        [false] := by
  cases part with
  | star => exact absurd rfl single
  | anyOne | exactly _ | oneOf _ _ => rfl

theorem matchRow_ne_nil (glob : Glob) (text : Text) : matchRow glob text ≠ [] := by
  induction glob with
  | nil => cases text <;> simp [matchRow]
  | cons part parts ih =>
    by_cases star : part = .star
    · subst star
      obtain ⟨here, later, row⟩ := List.exists_cons_of_ne_nil ih
      simp [matchRow, row, anyLater_cons]
    · simp [matchRow_part star]

theorem tail_matchRow (glob : Glob) (c : Char) (text : Text) :
    (matchRow glob (c :: text)).tail = matchRow glob text := by
  induction glob with
  | nil => rfl
  | cons part parts ih =>
    by_cases star : part = .star
    · subst star
      simp [matchRow, tail_anyLater, ih]
    · obtain ⟨here, later, row⟩ := List.exists_cons_of_ne_nil (matchRow_ne_nil parts text)
      simp [matchRow_part star, ih, row]

theorem matchRow_cons (glob : Glob) (c : Char) (text : Text) :
    matchRow glob (c :: text) = admits glob (c :: text) :: matchRow glob text := by
  obtain ⟨here, later, row⟩ := List.exists_cons_of_ne_nil (matchRow_ne_nil glob (c :: text))
  rw [← tail_matchRow glob c text, admits, row]
  rfl

theorem admits_nil (text : Text) : admits [] text = text.isEmpty := by
  cases text <;> rfl

theorem tail_matchRow_nil (glob : Glob) : (matchRow glob []).tail = [] := by
  induction glob with
  | nil => rfl
  | cons part parts ih =>
    by_cases star : part = .star
    · subst star
      rw [matchRow, tail_anyLater, ih]
      rfl
    · simp [matchRow_part star]

theorem admits_star_nil (parts : Glob) : admits (.star :: parts) [] = admits parts [] := by
  obtain ⟨here, later, row⟩ := List.exists_cons_of_ne_nil (matchRow_ne_nil parts [])
  have none : later = [] := by simpa [row] using tail_matchRow_nil parts
  simp [admits, matchRow, row, none, anyLater]

theorem admits_star_cons (parts : Glob) (c : Char) (text : Text) :
    admits (.star :: parts) (c :: text) =
      (admits parts (c :: text) || admits (.star :: parts) text) := by
  conv => lhs; rw [admits, matchRow, matchRow_cons parts c text, anyLater_cons]
  rfl

theorem admits_part_nil {part : GlobPart} (single : part ≠ .star) (parts : Glob) :
    admits (part :: parts) [] = false := by
  simp [admits, matchRow_part single]

theorem admits_part_cons {part : GlobPart} (single : part ≠ .star) (parts : Glob) (c : Char)
    (text : Text) :
    admits (part :: parts) (c :: text) = (accepts part c && admits parts text) := by
  obtain ⟨here, later, row⟩ := List.exists_cons_of_ne_nil (matchRow_ne_nil parts text)
  simp [admits, matchRow_part single, tail_matchRow, row]

/-- A star passes over any beginning of a text. -/
theorem admits_star_iff (parts : Glob) (text : Text) :
    admits (.star :: parts) text = true ↔ ∃ lead tail, text = lead ++ tail ∧ admits parts tail = true := by
  induction text with
  | nil =>
    rw [admits_star_nil]
    constructor
    · exact fun admitted => ⟨[], [], rfl, admitted⟩
    · rintro ⟨lead, tail, split, admitted⟩
      obtain ⟨-, rfl⟩ := List.append_eq_nil_iff.mp split.symm
      exact admitted
  | cons c rest ih =>
    rw [admits_star_cons, Bool.or_eq_true, ih]
    constructor
    · rintro (here | ⟨lead, tail, rfl, admitted⟩)
      · exact ⟨[], c :: rest, rfl, here⟩
      · exact ⟨c :: lead, tail, rfl, admitted⟩
    · rintro ⟨lead, tail, split, admitted⟩
      cases lead with
      | nil => exact .inl (split ▸ admitted)
      | cons d lead =>
        obtain ⟨rfl, rfl⟩ := List.cons.inj split
        exact .inr ⟨lead, tail, rfl, admitted⟩

/-- Plain characters at the beginning of a pattern stand for themselves. -/
theorem admits_exactly_append_iff (word : Text) (parts : Glob) (text : Text) :
    admits (word.map .exactly ++ parts) text = true ↔
      ∃ rest, text = word ++ rest ∧ admits parts rest = true := by
  induction word generalizing text with
  | nil => simp
  | cons c word ih =>
    rw [List.map_cons, List.cons_append]
    cases text with
    | nil => simp [admits_part_nil]
    | cons d text =>
      rw [admits_part_cons (by simp), Bool.and_eq_true, ih, accepts, beq_iff_eq]
      constructor
      · rintro ⟨rfl, rest, rfl, admitted⟩
        exact ⟨rest, rfl, admitted⟩
      · rintro ⟨rest, split, admitted⟩
        obtain ⟨rfl, rfl⟩ := List.cons.inj split
        exact ⟨rfl, rest, rfl, admitted⟩

/-- A pattern of plain characters admits them alone. -/
theorem admits_exactly_iff (word text : Text) : admits (word.map .exactly) text = true ↔ text = word := by
  have whole := admits_exactly_append_iff word [] text
  simpa [admits_nil] using whole

/-- A character that has no meaning of its own in a pattern. -/
def IsPlain (c : Char) : Prop := c ≠ '*' ∧ c ≠ '?' ∧ c ≠ '['

theorem readFrom_append {word : Text} (plain : ∀ c ∈ word, IsPlain c) (rest : Text) :
    readFrom 0 (word ++ rest) = word.map .exactly ++ readFrom 0 rest := by
  induction word with
  | nil => rfl
  | cons c word ih =>
    obtain ⟨noStar, noMark, noBracket⟩ := plain c List.mem_cons_self
    rw [List.cons_append, readFrom, if_neg noStar, if_neg noMark, if_neg noBracket,
      ih fun d member => plain d (List.mem_cons_of_mem c member)]
    rfl

end Glob

end ApiNotes
