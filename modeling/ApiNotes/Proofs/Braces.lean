import ApiNotes.Go.Braces
import Mathlib.Data.List.Basic

/-!
# Scanning well nested braces

A scan for a closing brace reads lines. Here it is followed through a text with line ends in it
(`BraceScan.linesFrom`), one step lemma to a kind of character. A text whose braces are well nested once
its comments and quoted texts are left out (`IsBody`) brings the scan back to the depth at which it came
in, so that it closes at the brace after it (`BraceScan.linesFrom_body`).
-/

namespace ApiNotes

/-! ## The lines of a text -/

namespace Text

variable {text front : Text} {c : Char}

theorem splitOn_cons (other : c ≠ '\n') (text : Text) : ∃ first rest,
    text.splitOn '\n' = first :: rest ∧ (c :: text).splitOn '\n' = (c :: first) :: rest := by
  obtain ⟨first, rest, lines⟩ := List.exists_cons_of_ne_nil (List.splitOn_ne_nil '\n' text)
  refine ⟨first, rest, lines, ?_⟩
  rw [List.splitOn_cons_eq_if_modifyHead, lines]
  simp [other]

theorem splitOn_break (text : Text) : ('\n' :: text).splitOn '\n' = [] :: text.splitOn '\n' :=
  List.splitOn_append_cons_self [] text

/-- A text without line ends stands on the first line of what it begins. -/
theorem splitOn_append (oneLine : '\n' ∉ front) (text : Text) : ∃ first rest,
    text.splitOn '\n' = first :: rest ∧ (front ++ text).splitOn '\n' = (front ++ first) :: rest := by
  induction front with
  | nil =>
    obtain ⟨first, rest, lines⟩ := List.exists_cons_of_ne_nil (List.splitOn_ne_nil '\n' text)
    exact ⟨first, rest, lines, lines⟩
  | cons c front ih =>
    have apart : c ≠ '\n' := fun same => oneLine (by simp [same])
    obtain ⟨first, rest, lines, whole⟩ := ih fun inside => oneLine (List.mem_cons_of_mem _ inside)
    obtain ⟨head, tail, same, split⟩ := splitOn_cons apart (front ++ text)
    obtain ⟨rfl, rfl⟩ := List.cons.inj (whole.symm.trans same)
    exact ⟨first, rest, lines, split⟩

theorem length_splitOn (text : Text) : (text.splitOn '\n').length = text.count '\n' + 1 := by
  induction text with
  | nil => rfl
  | cons c text ih =>
    by_cases ends : c = '\n'
    · rw [ends, splitOn_break, List.length_cons, ih, List.count_cons_self]
    · obtain ⟨first, rest, lines, split⟩ := splitOn_cons ends text
      rw [split, List.count_cons_of_ne ends, ← ih, lines]
      rfl

/-- The lines of texts that stand one below the other. -/
theorem splitOn_intercalate {texts : List Text} (some : texts ≠ []) :
    (['\n'].intercalate texts).splitOn '\n' = texts.flatMap (·.splitOn '\n') := by
  induction texts with
  | nil => exact absurd rfl some
  | cons first rest ih =>
    cases rest with
    | nil => simp
    | cons next rest =>
      rw [List.intercalate_cons_cons, List.append_assoc, List.singleton_append,
        List.splitOn_append_cons_self, ih (by simp)]
      simp

/-- The first character of a text, if it is on the first line. -/
def lineHead? : Text → Option Char
  | [] => none
  | c :: _ => if c = '\n' then none else some c

theorem head?_of_splitOn {first : Text} {rest : List Text} (lines : text.splitOn '\n' = first :: rest) :
    first.head? = lineHead? text := by
  cases text with
  | nil =>
    obtain ⟨rfl, -⟩ := List.cons.inj lines
    rfl
  | cons c text =>
    by_cases ends : c = '\n'
    · rw [ends, splitOn_break] at lines
      obtain ⟨rfl, -⟩ := List.cons.inj lines
      simp [lineHead?, ends]
    · obtain ⟨line, others, -, split⟩ := splitOn_cons ends text
      obtain ⟨rfl, -⟩ := List.cons.inj (split.symm.trans lines)
      simp [lineHead?, ends]

end Text

namespace Go

open Text

namespace BraceScan

variable {scan : BraceScan} {text front : Text} {after : List Text} {c : Char}

theorem linesToClose_cons (scan : BraceScan) (line : Text) {rest : List Text} (more : rest ≠ []) :
    scan.linesToClose (line :: rest) =
      if (scan.line line).closed then 0 else (scan.line line).linesToClose rest + 1 := by
  cases rest with
  | nil => exact absurd rfl more
  | cons next rest => rfl

/-- A scan ends on one of the lines. -/
theorem linesToClose_lt (scan : BraceScan) {lines : List Text} (some : lines ≠ []) :
    scan.linesToClose lines < lines.length := by
  induction lines generalizing scan with
  | nil => exact absurd rfl some
  | cons line rest ih =>
    by_cases last : rest = []
    · subst last
      exact Nat.one_pos
    · have later := ih (scan.line line) last
      rw [linesToClose_cons scan line last, List.length_cons]
      split_ifs <;> omega

/-- How many line ends of a text, and then of the lines after it, lie before the one on which the scan
closes. -/
def linesFrom (scan : BraceScan) (text : Text) (after : List Text) : Nat :=
  scan.linesToClose (text.splitOn '\n' ++ after)

/-- One character that ends no line. -/
theorem linesFrom_cons (other : c ≠ '\n') (scan : BraceScan) (text : Text) (after : List Text) :
    scan.linesFrom (c :: text) after =
      if (scan.step c (lineHead? text)).closed then 0
      else (scan.step c (lineHead? text)).linesFrom text after := by
  obtain ⟨first, rest, lines, split⟩ := splitOn_cons other text
  have head := head?_of_splitOn lines
  unfold linesFrom
  rw [split, lines, ← head]
  by_cases last : rest ++ after = []
  · simp [last, linesToClose]
  · rw [List.cons_append, List.cons_append, linesToClose_cons _ _ last, linesToClose_cons _ _ last, line]
    by_cases closed : (scan.step c first.head?).closed = true
    · simp [closed]
    · simp [closed]

/-- The end of a line. -/
theorem linesFrom_break (unclosed : scan.closed = false) (text : Text) (after : List Text) :
    scan.linesFrom ('\n' :: text) after = (scan.line []).linesFrom text after + 1 := by
  have same : (scan.line []).closed = false := by
    rw [line]
    split_ifs <;> exact unclosed
  unfold linesFrom
  rw [splitOn_break, List.cons_append, linesToClose_cons _ _ (by simp), same]
  simp

/-- A character of a comment that is not the first of those that end it. -/
theorem step_of_comment {next : Option Char} (inside : scan.mode = .comment)
    (goesOn : ¬(c = '*' ∧ next = some '/')) : scan.step c next = scan := by
  simp [step, inside, goesOn]

/-- A character of a quoted text. -/
theorem step_of_quoted {quote : Char} {next : Option Char} (inside : scan.mode = .quoted quote)
    (other : c ≠ quote) : scan.step c next = scan := by
  simp [step, inside, other]

/-- Characters that change nothing are passed over. -/
theorem linesFrom_append (oneLine : '\n' ∉ front) (unclosed : scan.closed = false)
    (idle : ∀ c ∈ front, ∀ next, scan.step c next = scan) (text : Text) (after : List Text) :
    scan.linesFrom (front ++ text) after = scan.linesFrom text after := by
  induction front with
  | nil => rfl
  | cons c front ih =>
    have other : c ≠ '\n' := fun same => oneLine (by simp [same])
    have still := idle c List.mem_cons_self (lineHead? (front ++ text))
    rw [List.cons_append, linesFrom_cons other, still, unclosed, if_neg Bool.false_ne_true]
    exact ih (fun inside => oneLine (List.mem_cons_of_mem _ inside)) fun d member =>
      idle d (List.mem_cons_of_mem _ member)

end BraceScan

/-! ## Texts of well nested braces -/

/-- A character that a scan of code may begin something with: a brace, a quote or a slash. -/
def IsSign (c : Char) : Prop := c ∈ ['{', '}', '"', '\x60', '/']

/-- A text whose braces are well nested, and which has no other quotes and no other beginnings of comments,
once quoted texts of one line, comments to the end of a line and block comments are left out. -/
inductive IsBody : Text → Prop
  | nil : IsBody []
  | plain (c : Char) (rest : Text) (other : ¬IsSign c) (tail : IsBody rest) : IsBody (c :: rest)
  /-- A slash that begins no comment. -/
  | slash (rest : Text) (line : rest.head? ≠ some '/') (block : rest.head? ≠ some '*')
      (tail : IsBody rest) : IsBody ('/' :: rest)
  | quoted (quote : Char) (inside rest : Text) (quotes : quote = '"' ∨ quote = '\x60')
      (unquoted : quote ∉ inside) (oneLine : '\n' ∉ inside) (tail : IsBody rest) :
      IsBody (quote :: (inside ++ quote :: rest))
  | lineComment (inside rest : Text) (oneLine : '\n' ∉ inside) (tail : IsBody rest) :
      IsBody ('/' :: '/' :: (inside ++ '\n' :: rest))
  | blockComment (inside rest : Text) (unclosed : ¬['*', '/'] <:+: inside) (tail : IsBody rest) :
      IsBody ('/' :: '*' :: (inside ++ '*' :: '/' :: rest))
  | braces (inner rest : Text) (inside : IsBody inner) (tail : IsBody rest) :
      IsBody ('{' :: (inner ++ '}' :: rest))

namespace BraceScan

variable {text front : Text} {after : List Text} {c : Char} {depth : Int}

def within (mode : BraceMode) (depth : Int) : BraceScan := ⟨mode, depth, true, false⟩

theorem codeStep_plain (other : ¬IsSign c) (scan : BraceScan) (next : Option Char) :
    scan.codeStep c next = scan := by
  simp only [IsSign, List.mem_cons, List.not_mem_nil, or_false, not_or] at other
  obtain ⟨opening, closing, double, back, slash⟩ := other
  simp [codeStep, opening, closing, double, back, slash]

/-- A block comment ends at the first star and slash in it. -/
theorem linesFrom_comment (unclosed : ¬['*', '/'] <:+: front) (depth : Int) (text : Text)
    (after : List Text) :
    (within .comment depth).linesFrom (front ++ '*' :: '/' :: text) after =
      front.count '\n' + (within .code depth).linesFrom text after := by
  induction front with
  | nil =>
    rw [List.nil_append, linesFrom_cons (by decide), linesFrom_cons (by decide)]
    simp [step, within, lineHead?]
  | cons c front ih =>
    have later := ih fun inside => unclosed (List.infix_cons inside)
    by_cases ends : c = '\n'
    · subst ends
      rw [List.cons_append, linesFrom_break rfl]
      simp only [line, within, if_true] at later ⊢
      rw [later, List.count_cons_self]
      omega
    · have next : c = '*' → (lineHead? (front ++ '*' :: '/' :: text)) ≠ some '/' := by
        rintro rfl slash
        cases front with
        | nil => simp [lineHead?] at slash
        | cons d front =>
          obtain rfl : d = '/' := by
            simp only [List.cons_append, lineHead?] at slash
            split_ifs at slash
            simpa using slash
          exact unclosed ⟨[], front, rfl⟩
      have still : (within .comment depth).step c (lineHead? (front ++ '*' :: '/' :: text)) =
          within .comment depth := step_of_comment rfl fun ends => next ends.1 ends.2
      rw [List.cons_append, linesFrom_cons ends, still, List.count_cons_of_ne ends, ← later]
      rfl

theorem linesFrom_code_break (depth : Int) (text : Text) (after : List Text) :
    (within .code depth).linesFrom ('\n' :: text) after = (within .code depth).linesFrom text after + 1 :=
  linesFrom_break rfl text after

theorem lineHead?_ne {text : Text} {d : Char} (other : text.head? ≠ some d) : lineHead? text ≠ some d := by
  cases text with
  | nil => simp [lineHead?]
  | cons c text =>
    simp only [lineHead?]
    split_ifs
    · simp
    · simpa using other

/-- A slash that begins no comment is passed over. -/
theorem linesFrom_slash (depth : Int) {text : Text} (line : text.head? ≠ some '/')
    (block : text.head? ≠ some '*') (after : List Text) :
    (within .code depth).linesFrom ('/' :: text) after = (within .code depth).linesFrom text after := by
  have still : (within .code depth).step '/' (lineHead? text) = within .code depth := by
    simp [step, codeStep, within, lineHead?_ne line, lineHead?_ne block]
  rw [linesFrom_cons (by decide), still]
  rfl

/-- A quoted text is passed over. -/
theorem linesFrom_quoted {quote : Char} (quotes : quote = '"' ∨ quote = '\x60') {inside : Text}
    (unquoted : quote ∉ inside) (oneLine : '\n' ∉ inside) (depth : Int) (text : Text)
    (after : List Text) :
    (within .code depth).linesFrom (quote :: (inside ++ quote :: text)) after =
      (within .code depth).linesFrom text after := by
  have other : quote ≠ '\n' := by
    rintro rfl
    exact absurd quotes (by decide)
  have opened : ∀ next, (within .code depth).step quote next = within (.quoted quote) depth := by
    intro next
    rcases quotes with rfl | rfl <;> rfl
  have idle : ∀ c ∈ inside, ∀ next,
      (within (.quoted quote) depth).step c next = within (.quoted quote) depth := by
    intro c member next
    exact step_of_quoted rfl fun same => unquoted (same ▸ member)
  have closed : ∀ next, (within (.quoted quote) depth).step quote next = within .code depth := by
    intro next
    simp [step, within]
  rw [linesFrom_cons other, opened, if_neg (by simp [within]), linesFrom_append oneLine rfl idle,
    linesFrom_cons other, closed, if_neg (by simp [within])]

/-- The rest of a line after two slashes is passed over. -/
theorem linesFrom_lineComment {inside : Text} (oneLine : '\n' ∉ inside) (depth : Int) (text : Text)
    (after : List Text) :
    (within .code depth).linesFrom ('/' :: '/' :: (inside ++ '\n' :: text)) after =
      (within .code depth).linesFrom text after + 1 := by
  have idle : ∀ c ∈ '/' :: inside, ∀ next,
      (within .lineComment depth).step c next = within .lineComment depth := fun _ _ _ => rfl
  rw [linesFrom_cons (by decide)]
  have entered : (within .code depth).step '/' (lineHead? ('/' :: (inside ++ '\n' :: text))) =
      within .lineComment depth := rfl
  rw [entered, if_neg (by simp [within]), ← List.cons_append, linesFrom_append (by simp [oneLine]) rfl idle,
    linesFrom_break rfl]
  rfl

/-- A block comment is passed over, with the line ends in it. -/
theorem linesFrom_blockComment {inside : Text} (unclosed : ¬['*', '/'] <:+: inside) (depth : Int)
    (text : Text) (after : List Text) :
    (within .code depth).linesFrom ('/' :: '*' :: (inside ++ '*' :: '/' :: text)) after =
      inside.count '\n' + (within .code depth).linesFrom text after := by
  have entered : ∀ later, (within .code depth).step '/' (lineHead? ('*' :: later)) =
      within .opening depth := fun _ => rfl
  have begun : ∀ next, (within .opening depth).step '*' next = within .comment depth := fun _ => rfl
  rw [linesFrom_cons (by decide), entered, if_neg (by simp [within]), linesFrom_cons (by decide), begun,
    if_neg (by simp [within]), linesFrom_comment unclosed]

/-- A brace goes one level down. -/
theorem linesFrom_open (depth : Int) (text : Text) (after : List Text) :
    (within .code depth).linesFrom ('{' :: text) after =
      (within .code (depth + 1)).linesFrom text after := by
  have entered : ∀ next, (within .code depth).step '{' next = within .code (depth + 1) := fun _ => rfl
  rw [linesFrom_cons (by decide), entered, if_neg (by simp [within])]

/-- A brace that others enclose goes one level up. -/
theorem linesFrom_close {depth : Int} (positive : 1 ≤ depth) (text : Text) (after : List Text) :
    (within .code (depth + 1)).linesFrom ('}' :: text) after =
      (within .code depth).linesFrom text after := by
  have inner : ¬depth + 1 = 1 := by omega
  have left : ∀ next, (within .code (depth + 1)).step '}' next = within .code depth := by
    intro next
    simp [step, codeStep, within, inner]
  rw [linesFrom_cons (by decide), left, if_neg (by simp [within])]

/-- The outermost brace closes the scan. -/
theorem linesFrom_last (text : Text) (after : List Text) :
    (within .code 1).linesFrom ('}' :: text) after = 0 := by
  have closed : ∀ next, ((within .code 1).step '}' next).closed = true := fun _ => rfl
  rw [linesFrom_cons (by decide), if_pos (closed _)]

/-- A scan of code comes out of a text of well nested braces as it came in. -/
theorem linesFrom_body {body : Text} (nested : IsBody body) {depth : Int} (positive : 1 ≤ depth)
    {text : Text} (line : text.head? ≠ some '/') (block : text.head? ≠ some '*') (after : List Text) :
    (within .code depth).linesFrom (body ++ text) after =
      body.count '\n' + (within .code depth).linesFrom text after := by
  induction nested generalizing depth text with
  | nil => simp
  | plain c rest other _ ih =>
    by_cases ends : c = '\n'
    · rw [ends, List.cons_append, linesFrom_code_break, ih positive line block, List.count_cons_self]
      omega
    · have still : ∀ next, (within .code depth).step c next = within .code depth := codeStep_plain other _
      rw [List.cons_append, linesFrom_cons ends, still, ih positive line block, List.count_cons_of_ne ends]
      rfl
  | slash rest noLine noBlock _ ih =>
    have heads : ∀ d, rest.head? ≠ some d → text.head? ≠ some d → (rest ++ text).head? ≠ some d := by
      intro d first second
      cases rest with
      | nil => exact second
      | cons c rest => exact first
    rw [List.cons_append, linesFrom_slash depth (heads _ noLine line) (heads _ noBlock block),
      ih positive line block, List.count_cons_of_ne (by decide)]
  | quoted quote inside rest quotes unquoted oneLine _ ih =>
    have other : quote ≠ '\n' := by
      rintro rfl
      exact absurd quotes (by decide)
    have none := List.count_eq_zero.mpr oneLine
    have passed := linesFrom_quoted quotes unquoted oneLine depth (rest ++ text) after
    simp only [List.cons_append, List.append_assoc, List.count_cons_of_ne other, List.count_append, none,
      passed, ih positive line block]
    omega
  | lineComment inside rest oneLine _ ih =>
    have none := List.count_eq_zero.mpr oneLine
    have passed := linesFrom_lineComment oneLine depth (rest ++ text) after
    simp [none, passed, ih positive line block]
    omega
  | blockComment inside rest unclosed _ ih =>
    have passed := linesFrom_blockComment unclosed depth (rest ++ text) after
    simp [passed, ih positive line block, Nat.add_assoc]
  | braces inner rest _ _ ihInner ihRest =>
    have deeper : (within .code (depth + 1)).linesFrom (inner ++ '}' :: (rest ++ text)) after =
        inner.count '\n' + (within .code (depth + 1)).linesFrom ('}' :: (rest ++ text)) after :=
      ihInner (by omega) (by simp) (by simp)
    have back := ihRest positive line block
    simp only [List.cons_append, List.append_assoc, linesFrom_open, deeper, linesFrom_close positive, back]
    simp [Nat.add_assoc]

/-- A scan that starts before the brace of a body closes at the brace after it. -/
theorem linesToClose_body {lead body : Text} (oneLine : '\n' ∉ lead) (plain : ∀ c ∈ lead, ¬IsSign c)
    (nested : IsBody body) (tail : Text) (after : List Text) :
    start.linesToClose ((lead ++ '{' :: (body ++ '}' :: tail)).splitOn '\n' ++ after) =
      body.count '\n' := by
  have idle : ∀ c ∈ lead, ∀ next, start.step c next = start := fun c member next =>
    codeStep_plain (plain c member) start next
  have entered : ∀ next, start.step '{' next = within .code 1 := fun _ => rfl
  have through : (within .code 1).linesFrom (body ++ '}' :: tail) after =
      body.count '\n' + (within .code 1).linesFrom ('}' :: tail) after :=
    linesFrom_body nested (Int.le_refl 1) (by simp) (by simp) after
  have scanned : start.linesFrom (lead ++ '{' :: (body ++ '}' :: tail)) after = body.count '\n' := by
    rw [linesFrom_append oneLine rfl idle, linesFrom_cons (by decide), entered, if_neg (by simp [within]),
      through, linesFrom_last, Nat.add_zero]
  exact scanned

end BraceScan

end Go

end ApiNotes
