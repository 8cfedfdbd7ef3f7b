import ApiNotes.Proofs.Braces
import ApiNotes.Proofs.References
import Mathlib.Data.List.Range

/-!
# Counting braces

The line on which braces are closed, found in two steps. Comments and quoted texts are taken out of the
lines (`codeFrom`); in what is left, the first line is looked for on which a closing brace makes as many as
were opened (`closingLine`). The scan for a closing brace takes both steps at once and comes to the same
line (`BraceScan.linesToClose_eq_closingLine`): before each line, what it remembers is a function of the code
so far and of whether a comment is open (`BraceScan.afterCode`).
-/

namespace ApiNotes.Go

open Text

/-! ## Lines without comments and quoted texts -/

/-- What is left of a line, and whether a block comment is open at its end. -/
structure CodeLine where
  code : Text
  commented : Bool

/-- A line without its comments and quoted texts, where a block comment is open before it or not. A block
comment ends with the next `*/`, a quoted text with the next quote of its kind or else with the line. -/
def CodeLine.ofLine (commented : Bool) (line : Text) : CodeLine :=
  if commented then
    match find? ['*', '/'] line with
    | some place => ofLine false (line.drop (place + 2))
    | none => ⟨[], true⟩
  else
    match line with
    | [] => ⟨[], false⟩
    | '/' :: '/' :: _ => ⟨[], false⟩
    | '/' :: '*' :: rest => ofLine true rest
    | c :: rest =>
      if c = '"' ∨ c = '\x60' then ofLine false ((rest.dropWhile (· ≠ c)).drop 1)
      else
        let later := ofLine false rest
        { later with code := c :: later.code }
termination_by 2 * line.length + commented.toNat
decreasing_by
  · rename_i inside
    rw [inside, List.length_drop, Bool.toNat_false, Bool.toNat_true]
    omega
  · simp only [List.length_cons, Bool.toNat_true]
    omega
  · have shorter := (List.dropWhile_suffix (· ≠ c) (l := rest)).length_le
    simp only [List.length_cons, List.length_drop, Bool.toNat_false]
    omega
  · simp only [List.length_cons, Bool.toNat_false]
    omega

/-- The lines without their comments and quoted texts. -/
def codeFrom (commented : Bool) : List Text → List Text
  | [] => []
  | line :: rest =>
    (CodeLine.ofLine commented line).code :: codeFrom (CodeLine.ofLine commented line).commented rest

/-! ## The line on which braces are closed -/

/-- Some closing brace in `code`, which stands after the code `before`, comes after an opening one and makes
the closing braces as many as the opening ones. -/
def Balances (before code : Text) : Prop :=
  ∃ front back, code = front ++ '}' :: back ∧ '{' ∈ before ++ front ∧
    (before ++ front ++ ['}']).count '}' = (before ++ front ++ ['}']).count '{'

theorem not_balances_nil (before : Text) : ¬Balances before [] := by
  rintro ⟨front, back, same, -⟩
  simp at same

/-- Either the first character is such a brace or a later one is. -/
theorem balances_cons {before code : Text} {c : Char} : Balances before (c :: code) ↔
    (c = '}' ∧ '{' ∈ before ∧ (before ++ ['}']).count '}' = (before ++ ['}']).count '{') ∨
      Balances (before ++ [c]) code := by
  constructor
  · rintro ⟨front, back, same, opened, even⟩
    cases front with
    | nil =>
      obtain ⟨rfl, rfl⟩ := List.cons.inj same
      exact .inl ⟨rfl, by simpa using opened, by simpa using even⟩
    | cons d front =>
      obtain ⟨rfl, rfl⟩ := List.cons.inj same
      exact .inr ⟨front, back, rfl, by simpa using opened, by simpa using even⟩
  · rintro (⟨rfl, opened, even⟩ | ⟨front, back, rfl, opened, even⟩)
    · exact ⟨[], code, rfl, by simpa using opened, by simpa using even⟩
    · exact ⟨c :: front, back, rfl, by simpa using opened, by simpa using even⟩

instance decidableBalances : (before code : Text) → Decidable (Balances before code)
  | before, [] => .isFalse (not_balances_nil before)
  | before, c :: code =>
    have := decidableBalances (before ++ [c]) code
    decidable_of_iff _ balances_cons.symm

/-- On a line of `code`, which stands after the code `before`, as many braces are closed as were opened. -/
def ClosesOn (before : Text) (code : List Text) (number : Nat) : Prop :=
  ∃ line ∈ code[number]?, Balances (before ++ (code.take number).flatten) line

instance (before : Text) (code : List Text) (number : Nat) : Decidable (ClosesOn before code number) :=
  inferInstanceAs (Decidable (∃ line ∈ code[number]?, _))

/-- The first line of `code` on which that is so. -/
def firstClosing? (before : Text) (code : List Text) : Option Nat :=
  (List.range code.length).find? fun number => ClosesOn before code number

/-- The line on which the braces are closed that open on the line `first` or after it, lines counted from 0;
the last line where there is none. -/
def closingLine (lines : List Text) (first : Nat) : Nat :=
  ((firstClosing? [] (codeFrom false (lines.drop first))).map (first + ·)).getD (lines.length - 1)

theorem firstClosing?_cons (before line : Text) (rest : List Text) : firstClosing? before (line :: rest) =
    if Balances before line then some 0 else (firstClosing? (before ++ line) rest).map (· + 1) := by
  have here : ClosesOn before (line :: rest) 0 ↔ Balances before line := by simp [ClosesOn]
  have later : ∀ number, ClosesOn before (line :: rest) (number + 1) ↔ ClosesOn (before ++ line) rest number := by
    simp [ClosesOn]
  rw [firstClosing?, List.length_cons, List.range_succ_eq_map, List.find?_cons, List.find?_map]
  simp only [Function.comp_def, Nat.succ_eq_add_one, here, later]
  split_ifs with closes
  · simp [closes]
  · simp [closes, firstClosing?]

/-! ## The scan -/

namespace BraceScan

variable {before line : Text} {c : Char} {next : Option Char}

/-- The scan after some code, where a block comment is open or not. -/
def afterCode (before : Text) (commented : Bool) : BraceScan where
  mode := if commented then .comment else .code
  depth := before.count '{' - before.count '}'
  opened := decide ('{' ∈ before)
  closed := false

/-- A character that does not close the scan. -/
theorem line_cons {scan : BraceScan} (unclosed : (scan.step c line.head?).closed = false) :
    scan.line (c :: line) = (scan.step c line.head?).line line := by
  rw [BraceScan.line, unclosed, if_neg Bool.false_ne_true]

theorem startsWith_pair {a b : Char} : startsWith [a, b] (c :: line) = true ↔ c = a ∧ line.head? = some b := by
  cases line with
  | nil => simp [startsWith, after?]
  | cons d line =>
    simp only [startsWith, after?]
    split_ifs <;> simp_all [eq_comm]

/-- A comment is passed over up to its end. -/
theorem line_comment {place : Nat} (ends : find? ['*', '/'] line = some place) :
    (afterCode before true).line line = (afterCode before false).line (line.drop (place + 2)) := by
  induction line generalizing place with
  | nil => cases ends
  | cons c line ih =>
    rw [find?_cons] at ends
    by_cases here : startsWith ['*', '/'] (c :: line) = true
    · obtain ⟨rfl, second⟩ := startsWith_pair.mp here
      obtain ⟨rest, rfl⟩ := List.head?_eq_some_iff.mp second
      rw [if_pos here] at ends
      obtain rfl := Option.some.inj ends
      rfl
    · rw [if_neg here] at ends
      obtain ⟨later, found, rfl⟩ := Option.map_eq_some_iff.mp ends
      have still : (afterCode before true).step c line.head? = afterCode before true :=
        step_of_comment rfl (startsWith_pair.not.mp here)
      rw [line_cons (by rw [still]; rfl), still, ih found]
      rfl

/-- A comment that does not end on a line is passed over with it. -/
theorem line_openComment (endless : find? ['*', '/'] line = none) :
    (afterCode before true).line line = afterCode before true := by
  induction line with
  | nil => rfl
  | cons c line ih =>
    rw [find?_cons] at endless
    split_ifs at endless with here
    have still : (afterCode before true).step c line.head? = afterCode before true :=
      step_of_comment rfl (startsWith_pair.not.mp here)
    rw [line_cons (by rw [still]; rfl), still, ih (Option.map_eq_none_iff.mp endless)]

/-- A quoted text is passed over up to its end, or with the line. -/
theorem line_quoted (before : Text) (quote : Char) (line : Text) :
    { afterCode before false with mode := .quoted quote }.line line =
      (afterCode before false).line ((line.dropWhile (· ≠ quote)).drop 1) := by
  induction line with
  | nil => rfl
  | cons c line ih =>
    by_cases ends : c = quote
    · have closed : { afterCode before false with mode := .quoted quote }.step c line.head? =
          afterCode before false := by
        simp [step, afterCode, ends]
      rw [line_cons (by rw [closed]; rfl), closed]
      simp [ends]
    · have still : { afterCode before false with mode := .quoted quote }.step c line.head? =
          { afterCode before false with mode := .quoted quote } := step_of_quoted rfl ends
      rw [line_cons (by rw [still]; rfl), still, ih]
      simp [ends]

/-- The rest of a line after two slashes is passed over. -/
theorem line_lineComment (before line : Text) :
    { afterCode before false with mode := .lineComment }.line line = afterCode before false := by
  induction line with
  | nil => rfl
  | cons c line ih => exact ih

/-- A character of code is counted. It closes the scan if it is a closing brace that balances the code. -/
theorem step_code (before : Text) (line : ¬(c = '/' ∧ next = some '/'))
    (block : ¬(c = '/' ∧ next = some '*')) (unquoted : ¬(c = '"' ∨ c = '\x60')) :
    (afterCode before false).step c next =
      { afterCode (before ++ [c]) false with closed := decide (c = '}' ∧ '{' ∈ before ∧
        (before ++ ['}']).count '}' = (before ++ ['}']).count '{') } := by
  have ahead : (afterCode before false).step c next = (afterCode before false).codeStep c next := rfl
  rw [ahead]
  by_cases opening : c = '{'
  · subst opening
    simp [codeStep, afterCode]
    omega
  by_cases closing : c = '}'
  · subst closing
    have even : (before.count '{' : Int) - before.count '}' = 1 ↔ before.count '}' + 1 = before.count '{' := by
      omega
    simp [codeStep, afterCode, even]
    omega
  · simp [codeStep, afterCode, line, block, unquoted, opening, closing, Ne.symm opening]

/-- What a scan comes to at the end of a line of which some code is left, after the code `before`. -/
structure Scanned (before : Text) (left : CodeLine) (scan : BraceScan) : Prop where
  closes : Balances before left.code → scan.closed = true
  goesOn : ¬Balances before left.code → scan = afterCode (before ++ left.code) left.commented

theorem scanned_nothing (before : Text) (commented : Bool) :
    Scanned before ⟨[], commented⟩ (afterCode before commented) where
  closes balances := absurd balances (not_balances_nil before)
  goesOn _ := by rw [List.append_nil]

/-- A character of code is left. -/
theorem Scanned.cons {left : CodeLine} {rest : Text} (line : ¬(c = '/' ∧ rest.head? = some '/'))
    (block : ¬(c = '/' ∧ rest.head? = some '*')) (unquoted : ¬(c = '"' ∨ c = '\x60'))
    (later : Scanned (before ++ [c]) left ((afterCode (before ++ [c]) false).line rest)) :
    Scanned before { left with code := c :: left.code } ((afterCode before false).line (c :: rest)) := by
  have counted := step_code before line block unquoted
  by_cases closes : c = '}' ∧ '{' ∈ before ∧ (before ++ ['}']).count '}' = (before ++ ['}']).count '{'
  · have closed : ((afterCode before false).line (c :: rest)).closed = true := by
      rw [BraceScan.line, counted, if_pos (by simpa using closes)]
      simpa using closes
    exact ⟨fun _ => closed, fun unbalanced => absurd (balances_cons.mpr (.inl closes)) unbalanced⟩
  · have goesOn : (afterCode before false).step c rest.head? = afterCode (before ++ [c]) false := by
      rw [counted, decide_eq_false closes]
      rfl
    have whole : Balances before (c :: left.code) ↔ Balances (before ++ [c]) left.code := by
      rw [balances_cons, or_iff_right closes]
    rw [line_cons (by rw [goesOn]; rfl), goesOn]
    exact ⟨fun balances => later.closes (whole.mp balances),
      fun unbalanced => by simpa using later.goesOn (whole.not.mp unbalanced)⟩

/-- A line is scanned to the code that is left of it. -/
theorem scanned_line (before : Text) (commented : Bool) (line : Text) :
    Scanned before (.ofLine commented line) ((afterCode before commented).line line) := by
  fun_induction CodeLine.ofLine commented line generalizing before with
  | case1 line place ends ih =>
    rw [line_comment ends]
    exact ih before
  | case2 line endless =>
    rw [line_openComment endless]
    exact scanned_nothing before true
  | case3 commented code =>
    obtain rfl : commented = false := by simpa using code
    exact scanned_nothing before false
  | case4 commented code rest =>
    obtain rfl : commented = false := by simpa using code
    have passed : (afterCode before false).line ('/' :: '/' :: rest) = afterCode before false :=
      line_lineComment before ('/' :: rest)
    rw [passed]
    exact scanned_nothing before false
  | case5 commented code rest ih =>
    obtain rfl : commented = false := by simpa using code
    have entered : (afterCode before false).line ('/' :: '*' :: rest) = (afterCode before true).line rest := rfl
    rw [entered]
    exact ih before
  | case6 commented code quote rest _ _ quotes ih =>
    obtain rfl : commented = false := by simpa using code
    have entered : (afterCode before false).line (quote :: rest) =
        { afterCode before false with mode := .quoted quote }.line rest := by
      rcases quotes with rfl | rfl <;> rfl
    rw [entered, line_quoted]
    exact ih before
  | case7 commented code c rest line block unquoted later ih =>
    obtain rfl : commented = false := by simpa using code
    refine Scanned.cons ?_ ?_ unquoted (ih (before ++ [c]))
    · rintro ⟨slash, first⟩
      obtain ⟨tail, same⟩ := List.head?_eq_some_iff.mp first
      exact line tail slash same
    · rintro ⟨slash, first⟩
      obtain ⟨tail, same⟩ := List.head?_eq_some_iff.mp first
      exact block tail slash same

/-- The scan closes on the first line on which the code that is left balances, or else comes to the last
line. -/
theorem linesToClose_afterCode (before : Text) (commented : Bool) (lines : List Text) :
    (afterCode before commented).linesToClose lines =
      (firstClosing? before (codeFrom commented lines)).getD (lines.length - 1) := by
  induction lines generalizing before commented with
  | nil => rfl
  | cons line rest ih =>
    have scanned := scanned_line before commented line
    rw [codeFrom, firstClosing?_cons]
    by_cases last : rest = []
    · subst last
      have nothing : ∀ before, firstClosing? before (codeFrom commented []) = none := fun _ => rfl
      split_ifs <;> rfl
    · have more : 0 < rest.length := List.length_pos_of_ne_nil last
      rw [linesToClose_cons _ _ last]
      split_ifs with closed balances balances
      · rfl
      · rw [scanned.goesOn balances] at closed
        cases closed
      · exact absurd (scanned.closes balances) closed
      · rw [scanned.goesOn balances, ih]
        cases firstClosing? _ _ with
        | none =>
          simp only [Option.map_none, Option.getD_none, List.length_cons]
          omega
        | some number => rfl

end BraceScan

/-- The scan from any line of a file comes to the line on which the code that is left balances. -/
theorem BraceScan.linesToClose_eq_closingLine (lines : List Text) (first : Nat) (inside : first < lines.length) :
    first + BraceScan.start.linesToClose (lines.drop first) = closingLine lines first := by
  have begun : BraceScan.start = afterCode [] false := rfl
  rw [begun, linesToClose_afterCode, closingLine, List.length_drop]
  cases firstClosing? [] (codeFrom false (lines.drop first)) with
  | none =>
    simp only [Option.map_none, Option.getD_none]
    omega
  | some number => rfl

/-- A file in which braces stand in comments and quotes, one of them is closed before any is opened, and a
comment begins with all three characters that could be taken for a whole one. -/
def knottyLines : List Text :=
  ["package a", "\x7d /*/ \x7b */ type T struct \x7b // \x7b", "A int \x60json:\"\x7d\"\x60 \x7b",
    "B = \"//\x7d\" /* \x7d", "\x7d", "*/ \x7d", "\x7d"].map String.toList

/-- From its second line on, the braces are closed on the sixth. -/
theorem BraceScan.linesToClose_eq_closingLine_knotty : 1 < knottyLines.length ∧
    codeFrom false (knottyLines.drop 1) =
      ["\x7d  type T struct \x7b ", "A int  \x7b", "B =  ", "", " \x7d", "\x7d"].map String.toList ∧
    1 + BraceScan.start.linesToClose (knottyLines.drop 1) = 5 ∧ closingLine knottyLines 1 = 5 := by
  have inside : 1 < knottyLines.length := by decide
  have scanned : 1 + BraceScan.start.linesToClose (knottyLines.drop 1) = 5 := by decide
  refine ⟨inside, by decide +kernel, scanned, ?_⟩
  rw [← linesToClose_eq_closingLine knottyLines 1 inside, scanned]

end ApiNotes.Go
