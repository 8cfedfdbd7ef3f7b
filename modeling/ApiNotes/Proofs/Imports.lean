import ApiNotes.Proofs.Navigation
import ApiNotes.Proofs.TypeGroups

/-!
# Sources and their imports

A `Go.Header` is a source text by its lines, so far as its package and imports go: one package clause and,
before or after it, imports of their own or in groups, and lines that begin neither. The package and the
imports that are read from such a text are those that it names (`Go.Header.imports_read`).
-/

namespace ApiNotes.Go

open Text

/-! ## Imports as they are written -/

/-- The name that an import is given. -/
structure ImportName where
  text : Text
  named : text = ['.'] ∨ IsWord text

structure ImportPath where
  text : Text
  nonempty : text ≠ []
  unquoted : '"' ∉ text
  oneLine : '\n' ∉ text

/-- An import as it is written, with anything after it. -/
structure Entry where
  name : Option (ImportName × Gap)
  path : ImportPath
  tail : LineText

namespace Entry

def lead (entry : Entry) : Text :=
  match entry.name with
  | none => []
  | some (name, gap) => name.text ++ gap.text

/-- The import up to the quote that ends its path. -/
def front (entry : Entry) : Text := entry.lead ++ '"' :: (entry.path.text ++ ['"'])

def text (entry : Entry) : Text := entry.front ++ entry.tail.text

def spec (entry : Entry) (number : Nat) : Import where
  path := entry.path.text
  name := entry.name.map (·.1.text)
  line := number

end Entry

/-- A file refers to a package by the name in its import, if that is a word other than the underscore, and
by what follows the last slash of its path otherwise. -/
def Import.IsCalled (spec : Import) (called : Text) : Prop :=
  (∃ name, spec.name = some name ∧ name ≠ ['.'] ∧ name ≠ ['_'] ∧ called = name) ∨
    (spec.name = none ∨ spec.name = some ['.'] ∨ spec.name = some ['_']) ∧
      '/' ∉ called ∧ (spec.path = called ∨ ∃ above, spec.path = above ++ '/' :: called)

/-! ## Sources as they are written -/

/-- The line begins with the word, which a blank, an opening parenthesis or the end of the line follows. -/
def LeadsWith (word line : Text) : Prop :=
  ∃ indent more, AllBlank indent ∧ line = indent ++ (word ++ more) ∧
    ∀ c ∈ more.head?, isBlank c = true ∨ c = '('

namespace Header

/-- A line whose first word is neither `package` nor `import`. -/
structure Filler extends LineText where
  packageless : ¬LeadsWith "package".toList text
  importless : ¬LeadsWith "import".toList text

/-- What may stand in a group. -/
inductive Member where
  | blank (space : Spacing)
  | comment (indent : Spacing) (text : LineText)
  | named (indent : Spacing) (entry : Entry)

namespace Member

def line : Member → Text
  | blank space => space.text
  | comment indent text => indent.text ++ (['/', '/'] ++ text.text)
  | named indent entry => indent.text ++ entry.text

def importsFrom (number : Nat) : List Member → List Import
  | [] => []
  | named _ entry :: more => entry.spec number :: importsFrom (number + 1) more
  | _ :: more => importsFrom (number + 1) more

end Member

/-- What a source is made of, its package clause apart. -/
inductive Item where
  | filler (line : Filler)
  | single (indent : Spacing) (gap : Gap) (entry : Entry)
  | group (indent gap : Spacing) (members : List Member) (closing : Spacing)

namespace Item

def lines : Item → List Text
  | filler line => [line.text]
  | single indent gap entry => [indent.text ++ ("import".toList ++ (gap.text ++ entry.text))]
  | group indent gap members closing =>
    (indent.text ++ ("import".toList ++ (gap.text ++ ['(']))) ::
      (members.map (·.line) ++ [closing.text ++ [')']])

def imports (number : Nat) : Item → List Import
  | filler _ => []
  | single _ _ entry => [entry.spec number]
  | group _ _ members _ => Member.importsFrom (number + 1) members

end Item

/-- The clause that names the package, and anything after the name. -/
structure Clause where
  indent : Spacing
  gap : Gap
  package : Text
  word : IsWord package
  tail : LineText
  stops : ∀ c ∈ tail.text.head?, isWord c = false

def Clause.line (clause : Clause) : Text :=
  clause.indent.text ++ ("package".toList ++ (clause.gap.text ++ (clause.package ++ clause.tail.text)))

end Header

/-- A source, item by item, and the package clause between them. -/
structure Header where
  before : List Header.Item
  clause : Header.Clause
  after : List Header.Item

namespace Header

def lines (header : Header) : List Text :=
  header.before.flatMap (·.lines) ++ header.clause.line :: header.after.flatMap (·.lines)

def text (header : Header) : Text := ['\n'].intercalate header.lines

def importsFrom (number : Nat) : List Item → List Import
  | [] => []
  | item :: more => item.imports number ++ importsFrom (number + item.lines.length) more

def imports (header : Header) : List Import :=
  importsFrom 1 header.before ++ importsFrom ((header.before.flatMap (·.lines)).length + 2) header.after

end Header

/-! ## Reading one import -/

theorem importPath?_quoted (path : ImportPath) (more : Text) :
    importPath? ('"' :: (path.text ++ '"' :: more)) = some path.text := by
  have taken := takeWhile_ne_append path.unquoted more
  simp only [importPath?, taken]
  simp [path.nonempty]

theorem importPath?_of_head {text : Text} (plain : text.head? ≠ some '"') : importPath? text = none := by
  unfold importPath?
  split
  · exact absurd rfl plain
  · rfl

namespace ImportName

variable (name : ImportName)

theorem nonempty : name.text ≠ [] := by
  rcases name.named with dot | word
  · simp [dot]
  · exact word.1

theorem startsFirm : StartsFirm name.text := by
  rcases name.named with dot | word
  · rw [dot]
    exact startsFirm_of_forall (by simp; decide)
  · exact word.startsFirm

/-- The name of an import has no quotes and no line ends. -/
theorem not_mem {c : Char} (other : isWord c = false) (mark : c ≠ '.') : c ∉ name.text := by
  intro member
  rcases name.named with dot | word
  · rw [dot, List.mem_singleton] at member
    exact mark member
  · rw [word.2 c member] at other
    cases other

/-- The name in an import is read up to the blanks after it. -/
theorem importName?_append (gap : Gap) {rest : Text} (firm : StartsFirm rest) :
    importName? (name.text ++ (gap.text ++ rest)) = some (name.text, rest) := by
  have skipped : afterBlanks? (gap.text ++ rest) = some rest := by
    rw [afterBlanks?_append gap.blank gap.nonempty, firm.trimLeft]
  have stops : ∀ c ∈ (gap.text ++ rest).head?, isWord c = false :=
    stops_at_gap gap.blank gap.nonempty (fun c blank => isWord_of_isBlank blank) rest
  rcases name.named with dot | word
  · rw [dot]
    simp [importName?, skipped]
  · have read : word? (name.text ++ (gap.text ++ rest)) = some (name.text, gap.text ++ rest) :=
      word?_eq_some_iff.mpr ⟨word, stops, rfl⟩
    obtain ⟨c, more, same⟩ := List.exists_cons_of_ne_nil word.1
    have mark : c ≠ '.' := by
      rintro rfl
      exact word.no_dot (by simp [same])
    rw [same] at read ⊢
    simp only [List.cons_append] at read ⊢
    simp [importName?, mark, read, skipped]

end ImportName

namespace Entry

variable (entry : Entry)

theorem front_ne_nil : entry.front ≠ [] := by simp [front]

theorem front_startsFirm : StartsFirm entry.front := by
  unfold front lead
  cases entry.name with
  | none =>
    have quote : StartsFirm ['"'] := startsFirm_of_forall (by simp; decide)
    exact quote.append (by simp)
  | some name =>
    rw [List.append_assoc]
    exact name.1.startsFirm.append name.1.nonempty

theorem front_endsFirm : EndsFirm entry.front := by
  have same : entry.front = (entry.lead ++ '"' :: entry.path.text) ++ ['"'] := by simp [front]
  rw [same]
  exact endsFirm_concat _ (by decide)

/-- An import is read from its front, whatever follows it. -/
theorem importSpec?_front (number : Nat) (more : Text) :
    importSpec? number (entry.front ++ more) = some (entry.spec number) := by
  have path := importPath?_quoted entry.path more
  have split : entry.front ++ more = entry.lead ++ '"' :: (entry.path.text ++ '"' :: more) := by simp [front]
  rw [split, importSpec?, spec, lead]
  cases entry.name with
  | none =>
    rw [List.nil_append, path]
    rfl
  | some name =>
    obtain ⟨name, gap⟩ := name
    have firm : StartsFirm ('"' :: (entry.path.text ++ '"' :: more)) := by
      intro c first
      cases first
      decide
    have plain : (name.text ++ (gap.text ++ '"' :: (entry.path.text ++ '"' :: more))).head? ≠ some '"' := by
      rw [head?_append_of_ne_nil name.nonempty]
      intro first
      exact name.not_mem (by decide) (by decide) (List.mem_of_mem_head? first)
    rw [List.append_assoc, importPath?_of_head plain]
    simp [name.importName?_append gap firm, path]

theorem text_oneLine : '\n' ∉ entry.text := by
  have front : '\n' ∉ entry.lead := by
    unfold lead
    cases entry.name with
    | none => simp
    | some name => simp [name.1.not_mem (c := '\n') (by decide) (by decide), name.2.oneLine]
  simp [text, Entry.front, front, entry.path.oneLine, entry.tail.oneLine]

end Entry

theorem Import.isCalled (spec : Import) : spec.IsCalled spec.localName := by
  have directory : '/' ∉ spec.directory ∧
      (spec.path = spec.directory ∨ ∃ above, spec.path = above ++ '/' :: spec.directory) := by
    rw [Import.directory]
    exact afterLast_cases '/' spec.path
  unfold localName
  cases named : spec.name with
  | none => exact .inr ⟨.inl named, directory⟩
  | some name =>
    by_cases dot : name = ['.']
    · exact .inr ⟨.inr (.inl (by rw [named, dot])), by simpa [dot] using directory⟩
    by_cases underscore : name = ['_']
    · exact .inr ⟨.inr (.inr (by rw [named, underscore])), by simpa [underscore] using directory⟩
    exact .inl ⟨name, named, dot, underscore, by simp [dot, underscore]⟩

/-! ## Reading line by line -/

section Lines

variable {line : Text} {number : Nat}

/-- Outside of groups, no import stands on the line and no group begins there. -/
structure ImportFree (line : Text) : Prop where
  importless : afterClauseWord? "import".toList (trim line) = none
  ungrouped : isGroupStart "import".toList (trim line) = false

theorem importsFrom_free (free : ImportFree line) (rest : List Text) :
    importsFrom false number (line :: rest) = importsFrom false (number + 1) rest := by
  rw [importsFrom, if_neg Bool.false_ne_true, free.importless, free.ungrouped]
  rfl

/-- A word that begins a line is followed by a blank or an opening parenthesis where a clause or a group
is read from it. -/
theorem leadsWith_of_clause {word spec : Text} (valid : IsWord word)
    (found : afterClauseWord? word line = some spec) : LeadsWith word line := by
  obtain ⟨-, indent, gap, blank, apart, gapBlank, rfl⟩ := (afterClauseWord?_eq_some_iff valid).mp found
  refine ⟨indent, gap ++ spec, blank, rfl, fun c first => .inl ?_⟩
  rw [head?_append_of_ne_nil apart] at first
  exact gapBlank c (List.mem_of_mem_head? first)

theorem leadsWith_of_isGroupStart {word : Text} (starts : isGroupStart word line = true) :
    LeadsWith word line := by
  unfold isGroupStart at starts
  obtain ⟨indent, blank, split⟩ := exists_trimLeft line
  cases after : after? word (trimLeft line) with
  | none =>
    rw [after] at starts
    cases starts
  | some more =>
    rw [eq_append_of_after? after] at split
    refine ⟨indent, more, blank, split, fun c first => ?_⟩
    by_cases space : isBlank c = true
    · exact .inl space
    -- Where no blank follows the word, the parenthesis does.
    right
    obtain ⟨tail, rfl⟩ := List.head?_eq_some_iff.mp first
    have kept : trimLeft (c :: tail) = c :: tail := by simp [trimLeft, space]
    rw [after, Option.map_some, kept] at starts
    split at starts
    · rename_i rest same
      exact (List.cons.inj (Option.some.inj same)).1
    · cases starts

theorem LeadsWith.of_trim {word : Text} (leads : LeadsWith word (trim line)) : LeadsWith word line := by
  obtain ⟨indent, more, blank, same, stops⟩ := leads
  obtain ⟨before, beforeBlank, left⟩ := exists_trimLeft line
  obtain ⟨after, afterBlank, right⟩ := exists_trimRight (trimLeft line)
  refine ⟨before ++ indent, more ++ after, ?_, ?_, ?_⟩
  · intro c member
    rcases List.mem_append.mp member with first | second
    · exact beforeBlank c first
    · exact blank c second
  · rw [left, right, show trimRight (trimLeft line) = _ from same]
    simp
  · intro c first
    cases more with
    | nil => exact .inl (afterBlank c (List.mem_of_mem_head? first))
    | cons d more => exact stops c (by simpa using first)

theorem packageOfLine?_eq_none (other : ¬LeadsWith "package".toList line) : packageOfLine? line = none := by
  have none : afterClauseWord? "package".toList line = none := by
    refine Option.eq_none_iff_forall_ne_some.mpr fun spec found => ?_
    exact other (leadsWith_of_clause isWord_package found)
  rw [packageOfLine?, none]
  rfl

theorem importFree_of_not_leadsWith (other : ¬LeadsWith "import".toList line) : ImportFree line where
  importless := by
    refine Option.eq_none_iff_forall_ne_some.mpr fun spec found => ?_
    exact other (leadsWith_of_clause isWord_import found).of_trim
  ungrouped := by
    rw [← Bool.not_eq_true]
    intro starts
    exact other (leadsWith_of_isGroupStart starts).of_trim

end Lines

/-- A line that begins with a word begins with no other. -/
theorem not_leadsWith {word other indent rest : Text} (valid : IsWord word) (otherValid : IsWord other)
    (different : word ≠ other) (blank : AllBlank indent) (stops : ∀ c ∈ rest.head?, isWord c = false) :
    ¬LeadsWith other (indent ++ (word ++ rest)) := by
  rintro ⟨before, more, beforeBlank, same, edge⟩
  have moreStops : ∀ c ∈ more.head?, isWord c = false := by
    intro c first
    rcases edge c first with space | rfl
    · exact isWord_of_isBlank space
    · decide
  have trimmed := congrArg trimLeft same
  rw [trimLeft_word blank valid, trimLeft_word beforeBlank otherValid] at trimmed
  exact different (word_append_inj valid otherValid stops moreStops trimmed).1

theorem not_leadsWith_of_head {word indent text : Text} (valid : IsWord word) (blank : AllBlank indent)
    (firm : StartsFirm text) (different : text.head? ≠ word.head?) : ¬LeadsWith word (indent ++ text) := by
  rintro ⟨before, more, beforeBlank, same, -⟩
  have trimmed := congrArg trimLeft same
  rw [trimLeft_append blank, firm.trimLeft, trimLeft_word beforeBlank valid] at trimmed
  rw [trimmed, head?_append_of_ne_nil valid.1] at different
  exact different rfl

namespace Header

/-! ### Lines of a group -/

namespace Member

theorem trim_named (indent : Spacing) (entry : Entry) :
    trim (named indent entry).line = entry.front ++ trimRight entry.tail.text :=
  trim_append_firm indent.blank entry.front_startsFirm entry.front_endsFirm entry.front_ne_nil _

theorem isGroupEnd_named (indent : Spacing) (entry : Entry) :
    isGroupEnd (named indent entry).line = false := by
  rw [isGroupEnd, trim_named, decide_eq_false_iff_not, head?_append_of_ne_nil entry.front_ne_nil]
  unfold Entry.front Entry.lead
  cases entry.name with
  | none => simp
  | some name =>
    rw [List.append_assoc, head?_append_of_ne_nil name.1.nonempty]
    intro ends
    exact name.1.not_mem (by decide) (by decide) (List.mem_of_mem_head? ends)

theorem trim_blank (space : Spacing) : trim (blank space).line = [] := by
  have only := trimLeft_append space.blank []
  rw [List.append_nil] at only
  rw [line, trim, only]
  rfl

theorem trim_comment (indent : Spacing) (text : LineText) :
    trim (comment indent text).line = ['/', '/'] ++ trimRight text.text := by
  have starts : StartsFirm ['/', '/'] := startsFirm_of_forall (by simp; decide)
  exact trim_append_firm indent.blank starts (endsFirm_concat ['/'] (by decide)) (by simp) text.text

theorem importsFrom_members (members : List Member) (number : Nat) (rest : List Text) :
    Go.importsFrom true number (members.map line ++ rest) =
      importsFrom number members ++ Go.importsFrom true (number + members.length) rest := by
  induction members generalizing number with
  | nil => rfl
  | cons member more ih =>
    have next := ih (number + 1)
    rw [Nat.add_right_comm] at next
    rw [List.map_cons, List.cons_append, Go.importsFrom, if_pos rfl, next]
    cases member with
    | blank space =>
      have unended : isGroupEnd (blank space).line = false := by simp [isGroupEnd, trim_blank]
      rw [trim_blank, unended]
      rfl
    | comment indent text =>
      have unended : isGroupEnd (comment indent text).line = false := by simp [isGroupEnd, trim_comment]
      rw [trim_comment, unended]
      rfl
    | named indent entry =>
      rw [trim_named, isGroupEnd_named, entry.importSpec?_front]
      rfl

/-- A name in an import may be the word of the package clause, but a quote follows it. -/
theorem packageless (member : Member) : packageOfLine? member.line = none := by
  cases member with
  | blank space =>
    refine packageOfLine?_eq_none ?_
    have firm : StartsFirm [] := startsFirm_of_forall (by simp)
    simpa [line] using not_leadsWith_of_head isWord_package space.blank firm (by simp)
  | comment indent text =>
    have slashes : StartsFirm ['/', '/'] := startsFirm_of_forall (by simp; decide)
    have firm : StartsFirm (['/', '/'] ++ text.text) := slashes.append (by simp)
    exact packageOfLine?_eq_none (not_leadsWith_of_head isWord_package indent.blank firm (by simp))
  | named indent entry =>
    have split : (named indent entry).line = indent.text ++
        (entry.lead ++ '"' :: (entry.path.text ++ '"' :: entry.tail.text)) := by
      simp [line, Entry.text, Entry.front]
    have firm : StartsFirm ('"' :: (entry.path.text ++ '"' :: entry.tail.text)) := by
      intro c first
      cases first
      decide
    rw [split, Entry.lead]
    cases entry.name with
    | none => exact packageOfLine?_eq_none (not_leadsWith_of_head isWord_package indent.blank firm (by simp))
    | some name =>
      obtain ⟨name, gap⟩ := name
      simp only [List.append_assoc]
      rcases name.named with dot | word
      · refine packageOfLine?_eq_none (not_leadsWith_of_head isWord_package indent.blank ?_ ?_)
        · exact name.startsFirm.append name.nonempty
        · rw [dot]
          simp
      by_cases same : name.text = "package".toList
      · have found : afterClauseWord? "package".toList (indent.text ++ (name.text ++ (gap.text ++ _))) = _ :=
          (afterClauseWord?_eq_some_iff isWord_package).mpr
            ⟨firm, indent.text, gap.text, indent.blank, gap.nonempty, gap.blank, by rw [same]⟩
        rw [packageOfLine?, found]
        rfl
      · have stops := stops_at_gap gap.blank gap.nonempty (fun c blank => isWord_of_isBlank blank)
        exact packageOfLine?_eq_none (not_leadsWith word isWord_package same indent.blank (stops _))

end Member

/-! ### Lines of a source -/

namespace Item

theorem afterClauseWord?_single (indent : Spacing) (gap : Gap) (entry : Entry) :
    afterClauseWord? "import".toList (trim (indent.text ++ ("import".toList ++ (gap.text ++ entry.text)))) =
      some (entry.front ++ trimRight entry.tail.text) := by
  have ends : EndsFirm ("import".toList ++ (gap.text ++ entry.front)) := by
    rw [← List.append_assoc]
    exact entry.front_endsFirm.append entry.front_ne_nil _
  have starts : StartsFirm ("import".toList ++ (gap.text ++ entry.front)) :=
    isWord_import.startsFirm.append isWord_import.1
  have trimmed := trim_append_firm indent.blank starts ends (by simp) entry.tail.text
  refine (afterClauseWord?_eq_some_iff isWord_import).mpr ?_
  refine ⟨entry.front_startsFirm.append entry.front_ne_nil, [], gap.text, by simp [AllBlank], gap.nonempty,
    gap.blank, ?_⟩
  simpa [Entry.text] using trimmed

/-- The line that begins a group, without its indentation. -/
theorem trim_first (indent gap : Spacing) :
    trim (indent.text ++ ("import".toList ++ (gap.text ++ ['(']))) =
      "import".toList ++ (gap.text ++ ['(']) := by
  have ends : EndsFirm ("import".toList ++ (gap.text ++ ['('])) := by
    rw [← List.append_assoc]
    exact endsFirm_concat _ (by decide)
  have starts : StartsFirm ("import".toList ++ (gap.text ++ ['('])) :=
    isWord_import.startsFirm.append isWord_import.1
  have trimmed := trim_append_firm indent.blank starts ends (by simp) []
  have nothing : trimRight [] = [] := rfl
  rwa [nothing, List.append_nil] at trimmed

theorem isGroupStart_first (gap : Spacing) :
    isGroupStart "import".toList ("import".toList ++ (gap.text ++ ['('])) = true := by
  have starts : StartsFirm ("import".toList ++ (gap.text ++ ['('])) :=
    isWord_import.startsFirm.append isWord_import.1
  rw [isGroupStart, starts.trimLeft, after?_append, Option.map_some, trimLeft_append gap.blank]
  rfl

/-- No import stands on the line that begins a group. -/
theorem importless_first (gap : Spacing) (number : Nat) :
    (afterClauseWord? "import".toList ("import".toList ++ (gap.text ++ ['(']))).bind (importSpec? number) =
      none := by
  refine Option.eq_none_iff_forall_ne_some.mpr fun spec found => ?_
  obtain ⟨text, after, read⟩ := Option.bind_eq_some_iff.mp found
  obtain ⟨firm, before, between, blank, apart, betweenBlank, same⟩ :=
    (afterClauseWord?_eq_some_iff isWord_import).mp after
  have parenthesis : StartsFirm ['('] := startsFirm_of_forall (by simp; decide)
  have trimmed := congrArg trimLeft same
  rw [trimLeft_word blank isWord_import, (isWord_import.startsFirm.append isWord_import.1).trimLeft,
    List.append_cancel_left_eq] at trimmed
  have rest := congrArg trimLeft trimmed
  rw [trimLeft_append gap.blank, trimLeft_append betweenBlank, firm.trimLeft, parenthesis.trimLeft] at rest
  rw [← rest] at read
  cases read

theorem isGroupEnd_last (closing : Spacing) : isGroupEnd (closing.text ++ [')']) = true := by
  have starts : StartsFirm [')'] := startsFirm_of_forall (by simp; decide)
  have trimmed := trim_append_firm closing.blank starts (endsFirm_concat [] (by decide)) (by simp) []
  rw [List.append_nil] at trimmed
  rw [isGroupEnd, trimmed]
  rfl

theorem importsFrom_lines (item : Item) (number : Nat) (rest : List Text) :
    Go.importsFrom false number (item.lines ++ rest) =
      item.imports number ++ Go.importsFrom false (number + item.lines.length) rest := by
  cases item with
  | filler line => exact importsFrom_free (importFree_of_not_leadsWith line.importless) rest
  | single indent gap entry =>
    rw [lines, List.singleton_append, Go.importsFrom, if_neg Bool.false_ne_true, afterClauseWord?_single,
      Option.bind_some, entry.importSpec?_front]
    rfl
  | group indent gap members closing =>
    rw [lines, List.cons_append, Go.importsFrom, if_neg Bool.false_ne_true, trim_first, importless_first,
      isGroupStart_first, List.append_assoc, Member.importsFrom_members, List.singleton_append, Go.importsFrom,
      if_pos rfl, if_pos (isGroupEnd_last closing), imports, ← lines]
    have length : number + (group indent gap members closing).lines.length =
        number + 1 + members.length + 1 := by
      simp [lines]
      omega
    rw [length]

theorem packageless (item : Item) : ∀ line ∈ item.lines, packageOfLine? line = none := by
  cases item with
  | filler line =>
    intro other member
    rw [lines, List.mem_singleton] at member
    rw [member]
    exact packageOfLine?_eq_none line.packageless
  | single indent gap entry =>
    intro other member
    rw [lines, List.mem_singleton] at member
    rw [member]
    refine packageOfLine?_eq_none (not_leadsWith isWord_import isWord_package (by decide) indent.blank ?_)
    exact stops_at_gap gap.blank gap.nonempty (fun c blank => isWord_of_isBlank blank) _
  | group indent gap members closing =>
    intro other member
    simp only [lines, List.mem_cons, List.mem_append, List.mem_map, List.not_mem_nil, or_false] at member
    rcases member with rfl | ⟨inner, -, rfl⟩ | rfl
    · refine packageOfLine?_eq_none (not_leadsWith isWord_import isWord_package (by decide) indent.blank ?_)
      intro c first
      rcases List.mem_append.mp (List.mem_of_mem_head? first) with space | parenthesis
      · exact isWord_of_isBlank (gap.blank c space)
      · obtain rfl := List.mem_singleton.mp parenthesis
        decide
    · exact inner.packageless
    · have firm : StartsFirm [')'] := startsFirm_of_forall (by simp; decide)
      exact packageOfLine?_eq_none (not_leadsWith_of_head isWord_package closing.blank firm (by simp))

theorem oneLine (item : Item) : ∀ line ∈ item.lines, '\n' ∉ line := by
  cases item with
  | filler line => simpa [lines] using line.oneLine
  | single indent gap entry => simp [lines, indent.oneLine, gap.oneLine, entry.text_oneLine]
  | group indent gap members closing =>
    have inner : ∀ member : Member, '\n' ∉ member.line := by
      intro member
      cases member with
      | blank space => exact space.oneLine
      | comment indent text => simp [Member.line, indent.oneLine, text.oneLine]
      | named indent entry => simp [Member.line, indent.oneLine, entry.text_oneLine]
    intro line member
    simp only [lines, List.mem_cons, List.mem_append, List.mem_map, List.not_mem_nil, or_false] at member
    rcases member with rfl | ⟨member, -, rfl⟩ | rfl
    · simp [indent.oneLine, gap.oneLine]
    · exact inner member
    · simp [closing.oneLine]

end Item

theorem importsFrom_items (items : List Item) (number : Nat) (rest : List Text) :
    Go.importsFrom false number (items.flatMap (·.lines) ++ rest) =
      importsFrom number items ++
        Go.importsFrom false (number + (items.flatMap (·.lines)).length) rest := by
  induction items generalizing number with
  | nil => rfl
  | cons item more ih =>
    rw [List.flatMap_cons, List.append_assoc, Item.importsFrom_lines, ih, importsFrom, List.append_assoc,
      List.length_append, Nat.add_assoc]

namespace Clause

theorem packageOfLine?_line (clause : Clause) : packageOfLine? clause.line = some clause.package := by
  have found : afterClauseWord? "package".toList clause.line = some (clause.package ++ clause.tail.text) :=
    (afterClauseWord?_eq_some_iff isWord_package).mpr ⟨clause.word.startsFirm.append clause.word.1,
      clause.indent.text, clause.gap.text, clause.indent.blank, clause.gap.nonempty, clause.gap.blank, rfl⟩
  have word : word? (clause.package ++ clause.tail.text) = some (clause.package, clause.tail.text) :=
    word?_eq_some_iff.mpr ⟨clause.word, clause.stops, rfl⟩
  rw [packageOfLine?, found, Option.bind_some, word]
  rfl

theorem importFree (clause : Clause) : ImportFree clause.line := by
  refine importFree_of_not_leadsWith ?_
  refine not_leadsWith isWord_package isWord_import (by decide) clause.indent.blank ?_
  exact stops_at_gap clause.gap.blank clause.gap.nonempty (fun c blank => isWord_of_isBlank blank) _

theorem oneLine (clause : Clause) : '\n' ∉ clause.line := by
  have name : '\n' ∉ clause.package := fun member => absurd (clause.word.2 _ member) (by decide)
  simp [line, clause.indent.oneLine, clause.gap.oneLine, name, clause.tail.oneLine]

end Clause

variable (header : Header)

theorem splitOn_text : header.text.splitOn '\n' = header.lines := by
  refine List.splitOn_intercalate '\n' ?_ (by simp [lines])
  intro line member
  simp only [lines, List.mem_append, List.mem_cons, List.mem_flatMap] at member
  rcases member with ⟨item, -, inside⟩ | rfl | ⟨item, -, inside⟩
  · exact item.oneLine line inside
  · exact header.clause.oneLine
  · exact item.oneLine line inside

theorem packageOf?_lines : packageOf? header.lines = some header.clause.package := by
  have before : (header.before.flatMap (·.lines)).findSome? packageOfLine? = none := by
    rw [List.findSome?_eq_none_iff]
    intro line member
    obtain ⟨item, -, inside⟩ := List.mem_flatMap.mp member
    exact item.packageless line inside
  rw [packageOf?, lines, List.findSome?_append, before, Option.none_or, List.findSome?_cons,
    header.clause.packageOfLine?_line]

theorem importsOf_lines : importsOf header.lines = header.imports := by
  have rest := importsFrom_items header.after ((header.before.flatMap (·.lines)).length + 2) []
  have next : 1 + (header.before.flatMap (·.lines)).length + 1 =
      (header.before.flatMap (·.lines)).length + 2 := by omega
  rw [List.append_nil] at rest
  rw [importsOf, lines, importsFrom_items, importsFrom_free header.clause.importFree, next, rest, imports]
  simp [Go.importsFrom]

end Header

theorem importSpec?_line {number : Nat} {text : Text} {spec : Import}
    (read : importSpec? number text = some spec) : spec.line = number := by
  unfold importSpec? at read
  split at read
  · cases read
    rfl
  · simp only [bind, Option.bind_eq_some_iff] at read
    obtain ⟨_, _, _, _, same⟩ := read
    rw [← Option.some.inj same]

section

variable {number : Nat} {line text rest path : Text} {grouped : Bool} {spec : Import}

theorem importPath?_piece (found : importPath? text = some path) : path ≠ [] ∧ path <:+: text := by
  unfold importPath? at found
  split at found
  · rename_i rest
    dsimp only at found
    split_ifs at found with valid
    obtain rfl := Option.some.inj found
    have nonempty : rest.takeWhile (· ≠ '"') ≠ [] := by simpa using (Bool.and_eq_true_iff.mp valid).1
    exact ⟨nonempty, (List.takeWhile_prefix _).isInfix.trans (List.suffix_cons _ _).isInfix⟩
  · cases found

theorem importName?_piece {name : Text} (found : importName? text = some (name, rest)) : rest <:+ text := by
  have afterName : ∀ {word more : Text},
      ((afterBlanks? more).bind fun left => some (word, left)) = some (name, rest) → rest <:+ more := by
    intro word more read
    obtain ⟨left, skipped, same⟩ := Option.bind_eq_some_iff.mp read
    obtain ⟨-, rfl⟩ := Prod.mk.inj (Option.some.inj same)
    obtain ⟨-, gap, -, -, rfl⟩ := afterBlanks?_eq_some_iff.mp skipped
    exact List.suffix_append gap left
  unfold importName? at found
  simp only [bind] at found
  split at found
  · exact (afterName found).trans (List.suffix_cons _ _)
  · obtain ⟨⟨word, more⟩, read, left⟩ := Option.bind_eq_some_iff.mp found
    obtain ⟨-, -, rfl⟩ := word?_eq_some_iff.mp read
    exact (afterName left).trans (List.suffix_append word more)

theorem importSpec?_piece (read : importSpec? number text = some spec) : spec.path ≠ [] ∧ spec.path <:+: text := by
  unfold importSpec? at read
  split at read
  · rename_i path found
    obtain rfl := Option.some.inj read
    exact importPath?_piece found
  · simp only [bind, Option.bind_eq_some_iff] at read
    obtain ⟨⟨name, rest⟩, named, path, found, same⟩ := read
    obtain rfl := Option.some.inj same
    obtain ⟨nonempty, inside⟩ := importPath?_piece found
    exact ⟨nonempty, inside.trans (importName?_piece named).isInfix⟩

def importOn? (grouped : Bool) (number : Nat) (line : Text) : Option Import :=
  if grouped then
    if isGroupEnd line then none else importSpec? number (trim line)
  else (afterClauseWord? "import".toList (trim line)).bind (importSpec? number)

/-- Whether a group of imports is open after a line. -/
def importGroupAfter (grouped : Bool) (number : Nat) (line : Text) : Bool :=
  if grouped then !isGroupEnd line
  else (importOn? false number line).isNone && isGroupStart "import".toList (trim line)

/-- An import on a line is read from a piece of it. -/
theorem exists_of_importOn? (found : importOn? grouped number line = some spec) :
    ∃ text, text <:+: line ∧ importSpec? number text = some spec := by
  unfold importOn? at found
  split_ifs at found
  · exact ⟨trim line, trim_isInfix line, found⟩
  · obtain ⟨text, clause, read⟩ := Option.bind_eq_some_iff.mp found
    obtain ⟨-, indent, gap, -, -, -, same⟩ := (afterClauseWord?_eq_some_iff isWord_import).mp clause
    refine ⟨text, List.IsInfix.trans ⟨indent ++ ("import".toList ++ gap), [], ?_⟩ (trim_isInfix line), read⟩
    rw [same]
    simp

end

theorem importsFrom_cons (grouped : Bool) (number : Nat) (line : Text) (rest : List Text) :
    importsFrom grouped number (line :: rest) = (importOn? grouped number line).toList ++
      importsFrom (importGroupAfter grouped number line) (number + 1) rest := by
  rw [importsFrom]
  cases grouped with
  | true =>
    simp only [importOn?, importGroupAfter, if_true]
    by_cases ends : isGroupEnd line = true
    · simp [ends]
    · simp [ends]
  | false =>
    have spec : importOn? false number line =
        (afterClauseWord? "import".toList (trim line)).bind (importSpec? number) := rfl
    simp only [importGroupAfter, ← spec, Bool.false_eq_true, if_false]
    cases importOn? false number line <;> rfl

/-- Imports are listed by ascending lines. -/
theorem importsFrom_ascending (grouped : Bool) (number : Nat) (lines : List Text) :
    (importsFrom grouped number lines).Pairwise (fun a b => a.line < b.line) ∧
      ∀ spec ∈ importsFrom grouped number lines, number ≤ spec.line := by
  induction lines generalizing grouped number with
  | nil => simp [importsFrom]
  | cons line rest ih =>
    obtain ⟨apart, below⟩ := ih (importGroupAfter grouped number line) (number + 1)
    have later : ∀ spec ∈ importsFrom (importGroupAfter grouped number line) (number + 1) rest,
        number < spec.line := below
    rw [importsFrom_cons]
    cases found : importOn? grouped number line with
    | none => exact ⟨apart, fun spec member => (later spec member).le⟩
    | some spec =>
      obtain ⟨text, -, read⟩ := exists_of_importOn? found
      have here := importSpec?_line read
      refine ⟨List.pairwise_cons.mpr ⟨fun other member => here ▸ later other member, apart⟩, ?_⟩
      exact List.forall_mem_cons.mpr ⟨here.ge, fun other member => (later other member).le⟩

namespace Header

/-- The package and the imports that are read from a source are those that it names. A file is read from it
unless a line at or after a marker spells too long a status code. -/
theorem imports_read (header : Header) (name marker : Text) :
    packageOf? (header.text.splitOn '\n') = some header.clause.package ∧
      importsOf (header.text.splitOn '\n') = header.imports ∧
      header.imports.Pairwise (fun a b => a.line < b.line) ∧
      (∀ spec ∈ header.imports, spec.IsCalled spec.localName) ∧
      ((∃ file, GoFile.ofSource name marker header.text = .ok file ∧
          file.package = some header.clause.package ∧ file.imports = header.imports) ↔
        NoneTooLong (header.text.splitOn '\n') (AfterMarker marker (header.text.splitOn '\n'))) := by
  have package := header.packageOf?_lines
  have imports := header.importsOf_lines
  have ascending := (importsFrom_ascending false 1 header.lines).1
  rw [← Note.exists_ofLines_iff_noneTooLong, splitOn_text]
  refine ⟨package, imports, ?_, fun spec _ => spec.isCalled, ?_⟩
  · rwa [← imports]
  · unfold GoFile.ofSource
    rw [splitOn_text]
    cases notes : Note.ofLines marker header.lines <;>
      simp [notes, bind, Except.bind, pure, Except.pure, package, imports]

/-- A comment begins neither a clause nor a group. -/
def remark (text : LineText) : Item := .filler {
  text := '/' :: '/' :: text.text
  oneLine := by simp [text.oneLine]
  packageless := not_leadsWith_of_head isWord_package (List.forall_mem_nil _)
    (by simp [StartsFirm]; decide) (by simp)
  importless := not_leadsWith_of_head isWord_import (List.forall_mem_nil _)
    (by simp [StartsFirm]; decide) (by simp) }

/-- A package clause and an import, below a marker and an outcome with too long a status code. -/
def unreadable : Header where
  before := [remark ⟨" List godoc".toList, by decide⟩,
    remark ⟨" @Failure ".toList ++ List.replicate 4301 '9' ++ " {object} b.E".toList, by decide +kernel⟩]
  clause := ⟨ApiNotes.Clause.singleSpaced.indent, ApiNotes.Clause.space, "a".toList,
    ⟨by decide, List.all_eq_true.mp (by decide)⟩,
    ⟨[], ApiNotes.Clause.singleSpaced.indent.oneLine⟩, by simp⟩
  after := [.single ApiNotes.Clause.singleSpaced.indent ApiNotes.Clause.space
    ⟨none, ⟨"fmt".toList, by decide, by decide, by decide⟩,
      ⟨[], ApiNotes.Clause.singleSpaced.indent.oneLine⟩⟩]

/-- No file is read from that source, though it has an import. -/
theorem unreadable_unread : unreadable.imports = [⟨"fmt".toList, none, 4⟩] ∧
    GoFile.ofSource GoFile.unnamed defaultMarker unreadable.text = .error ⟨4301⟩ :=
  ⟨by decide +kernel, by decide +kernel⟩

end Header

end ApiNotes.Go
