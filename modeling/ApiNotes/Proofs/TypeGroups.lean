import ApiNotes.Proofs.Segments
import ApiNotes.Proofs.Sources

/-!
# Which lines declare a type

A line declares the name that it begins with in a group of declarations, and the name after the word
`type` anywhere else (`NameStands`), if anything follows that name. The reader passes over the lines of a
body, so these neither declare a type nor begin or end a group (`exists_mem_typesOf_iff`).
-/

namespace ApiNotes.Go

open Text

/-- A line after the first one of a declaration, up to its last one. -/
def InBody (lines : List Text) (number : Nat) : Prop :=
  ∃ decl ∈ typesOf lines, decl.first < number ∧ number ≤ decl.last

instance (lines : List Text) (number : Nat) : Decidable (InBody lines number) :=
  inferInstanceAs (Decidable (∃ decl ∈ typesOf lines, _))

/-- Of the lines that count, one above begins a group, and none from there on ends it. -/
def InGroup (counts : Nat → Prop) (lines : List Text) (number : Nat) : Prop :=
  ∃ start, start < number ∧ counts start ∧ LineIs (isGroupStart "type".toList) lines start ∧
    ∀ between, start ≤ between → between < number → counts between → ¬LineIs isGroupEnd lines between

instance (counts : Nat → Prop) [DecidablePred counts] (lines : List Text) (number : Nat) :
    Decidable (InGroup counts lines number) :=
  inferInstanceAs (Decidable (∃ start, start < number ∧ _))

/-- A line names a type: at its beginning in a group, after the word `type` elsewhere. `rest` follows
the name, which ends there. -/
def NameStands (grouped : Prop) (name line rest : Text) : Prop :=
  IsWord name ∧ (∀ c ∈ rest.head?, isWord c = false) ∧ ∃ indent, AllBlank indent ∧
    (grouped ∧ line = indent ++ (name ++ rest) ∨
      ¬grouped ∧ ∃ gap, gap ≠ [] ∧ AllBlank gap ∧
        line = indent ++ ("type".toList ++ (gap ++ (name ++ rest))))

section

variable {counts : Nat → Prop} {lines : List Text} {number : Nat} {name line spec rest : Text}

/-! ## Groups, line by line -/

theorem trimLeft_word {gap : Text} (blank : AllBlank gap) (word : IsWord name) (more : Text) :
    trimLeft (gap ++ (name ++ more)) = name ++ more := by
  rw [trimLeft_append blank, (word.startsFirm.append word.1).trimLeft]

/-- The line that begins a group does not end one. -/
theorem isGroupEnd_eq_false_of_isGroupStart (starts : isGroupStart "type".toList line = true) :
    isGroupEnd line = false := by
  unfold isGroupStart at starts
  cases word : after? "type".toList (trimLeft line) with
  | none =>
    rw [word] at starts
    cases starts
  | some more =>
    rw [isGroupEnd, trim, eq_append_of_after? word, trimRight_append_firm isWord_type.endsFirm]
    rfl

theorem not_inGroup_first : ¬InGroup counts lines 1 := by
  rintro ⟨start, before, -, starts, -⟩
  have := starts.bounds
  omega

/-- One more line. -/
theorem inGroup_succ (found : lineAt? lines number = some line) : InGroup counts lines (number + 1) ↔
    counts number ∧ isGroupStart "type".toList line = true ∨
      InGroup counts lines number ∧ (counts number → isGroupEnd line = false) := by
  have begins : LineIs (isGroupStart "type".toList) lines number ↔ _ := lineIs_of_lineAt? found
  have ends : LineIs isGroupEnd lines number ↔ _ := lineIs_of_lineAt? found
  constructor
  · rintro ⟨start, before, counted, starts, opened⟩
    rcases Nat.lt_or_ge start number with earlier | here
    · right
      refine ⟨⟨start, earlier, counted, starts, ?_⟩, ?_⟩
      · intro between lower upper
        exact opened between lower (by omega)
      · intro counted
        have kept := opened number (by omega) (by omega) counted
        rwa [ends, Bool.not_eq_true] at kept
    · left
      obtain rfl : start = number := by omega
      exact ⟨counted, begins.mp starts⟩
  · rintro (⟨counted, starts⟩ | ⟨⟨start, before, counted, starts, opened⟩, kept⟩)
    · refine ⟨number, by omega, counted, begins.mpr starts, ?_⟩
      intro between lower upper _
      obtain rfl : between = number := by omega
      rw [ends, isGroupEnd_eq_false_of_isGroupStart starts]
      exact Bool.false_ne_true
    · refine ⟨start, by omega, counted, starts, ?_⟩
      intro between lower upper counted
      rcases Nat.lt_or_ge between number with earlier | here
      · exact opened between lower earlier counted
      · obtain rfl : between = number := by omega
        rw [ends, kept counted]
        exact Bool.false_ne_true

/-- Whether a group is open after a line. -/
def groupedAfter (grouped : Bool) (line : Text) : Bool :=
  if grouped then !isGroupEnd line else isGroupStart "type".toList line

theorem groupedAfter_iff {grouped : Bool} (found : lineAt? lines number = some line) (counted : counts number)
    (group : grouped = true ↔ InGroup counts lines number) :
    groupedAfter grouped line = true ↔ InGroup counts lines (number + 1) := by
  rw [inGroup_succ found, ← group]
  cases grouped with
  | true =>
    by_cases starts : isGroupStart "type".toList line = true
    · have opened := isGroupEnd_eq_false_of_isGroupStart starts
      rw [groupedAfter, opened, starts]
      simp [counted]
    · simp only [groupedAfter, starts]
      simp [counted]
  | false =>
    simp only [groupedAfter]
    simp [counted]

/-! ## What a line declares -/

theorem not_isGroupEnd_of_isWord {indent : Text} (blank : AllBlank indent) (word : IsWord name) (rest : Text) :
    isGroupEnd (indent ++ (name ++ rest)) = false := by
  rw [isGroupEnd, trim_append_firm blank word.startsFirm word.endsFirm word.1]
  obtain ⟨c, more, rfl⟩ := List.exists_cons_of_ne_nil word.1
  have inside := word.2 c (by simp)
  by_contra ends
  obtain rfl : c = ')' := by simpa using ends
  exact absurd inside (by decide)

/-- What a declaration names, as it is written. Something follows the name. -/
theorem exists_typeSpec?_iff : (∃ kind, typeSpec? spec = some (name, kind)) ↔
    IsWord name ∧ ∃ indent rest, AllBlank indent ∧ (∀ c ∈ rest.head?, isWord c = false) ∧
      spec = indent ++ (name ++ rest) ∧ ∃ c ∈ rest, isBlank c = false := by
  constructor
  · rintro ⟨kind, read⟩
    unfold typeSpec? at read
    simp only [bind, Option.bind_eq_some_iff] at read
    obtain ⟨⟨word, rest⟩, found, kept⟩ := read
    split_ifs at kept with empty
    obtain ⟨rfl, -⟩ : word = name ∧ kindOfRest rest = kind := by simpa using kept
    obtain ⟨isWord, stops, trimmed⟩ := word?_eq_some_iff.mp found
    obtain ⟨c, member, firm⟩ := trim_ne_nil_iff.mp empty
    obtain ⟨indent, blank, split⟩ := exists_trimLeft spec
    obtain ⟨tail, -, whole⟩ := exists_trimRight (trimLeft spec)
    rw [show trimRight (trimLeft spec) = word ++ rest from trimmed] at whole
    refine ⟨isWord, indent, rest ++ tail, blank, ?_, ?_, c, List.mem_append_left _ member, firm⟩
    · rwa [head?_append_of_ne_nil (List.ne_nil_of_mem member)]
    · rw [split, whole, List.append_assoc]
  · rintro ⟨word, indent, rest, blank, stops, rfl, c, member, firm⟩
    have kept := mem_trimRight member firm
    have trimmedStops : ∀ d ∈ (trimRight rest).head?, isWord d = false := by
      obtain ⟨gap, -, split⟩ := exists_trimRight rest
      rwa [split, head?_append_of_ne_nil (List.ne_nil_of_mem kept)] at stops
    have read : word? (trim (indent ++ (name ++ rest))) = some (name, trimRight rest) := by
      rw [trim_append_firm blank word.startsFirm word.endsFirm word.1]
      exact word?_eq_some_iff.mpr ⟨word, trimmedStops, rfl⟩
    refine ⟨kindOfRest (trimRight rest), ?_⟩
    simp [typeSpec?, read, trim_ne_nil kept firm]

theorem afterClauseWord?_eq_some_iff {word : Text} (valid : IsWord word) :
    afterClauseWord? word line = some spec ↔ StartsFirm spec ∧ ∃ indent gap, AllBlank indent ∧
      gap ≠ [] ∧ AllBlank gap ∧ line = indent ++ (word ++ (gap ++ spec)) := by
  rw [afterClauseWord?, Option.bind_eq_some_iff]
  constructor
  · rintro ⟨more, found, skipped⟩
    obtain ⟨indent, blank, split⟩ := exists_trimLeft line
    obtain ⟨firm, gap, apart, gapBlank, rfl⟩ := afterBlanks?_eq_some_iff.mp skipped
    rw [eq_append_of_after? found] at split
    exact ⟨firm, indent, gap, blank, apart, gapBlank, split⟩
  · rintro ⟨firm, indent, gap, blank, apart, gapBlank, rfl⟩
    refine ⟨gap ++ spec, ?_, afterBlanks?_eq_some_iff.mpr ⟨firm, gap, apart, gapBlank, rfl⟩⟩
    rw [trimLeft_word blank valid, after?_append]

/-- The text of a declaration is read where the name stands. -/
theorem exists_specOfLine?_iff (grouped : Bool) :
    (∃ spec kind, specOfLine? grouped line = some spec ∧ typeSpec? spec = some (name, kind)) ↔
      ∃ rest, NameStands (grouped = true) name line rest ∧ ∃ c ∈ rest, isBlank c = false := by
  cases grouped with
  | true =>
    constructor
    · rintro ⟨spec, kind, found, read⟩
      simp only [specOfLine?, if_true] at found
      split_ifs at found
      obtain rfl : trim line = spec := by simpa using found
      rw [typeSpec?, trim_trim] at read
      obtain ⟨word, indent, rest, blank, stops, same, some⟩ := exists_typeSpec?_iff.mp ⟨kind, read⟩
      exact ⟨rest, ⟨word, stops, indent, blank, .inl ⟨rfl, same⟩⟩, some⟩
    · rintro ⟨rest, ⟨word, stops, indent, blank, ⟨-, same⟩ | ⟨outside, -⟩⟩, some⟩
      · obtain ⟨kind, read⟩ := exists_typeSpec?_iff.mpr ⟨word, indent, rest, blank, stops, same, some⟩
        refine ⟨trim line, kind, ?_, ?_⟩
        · have trimmed : trim line = name ++ trimRight rest := by
            rw [same, trim_append_firm blank word.startsFirm word.endsFirm word.1]
          obtain ⟨c, more, rfl⟩ := List.exists_cons_of_ne_nil word.1
          have slash : c ≠ '/' := by
            rintro rfl
            exact absurd (word.2 '/' (by simp)) (by decide)
          simp [specOfLine?, trimmed, startsWith, after?, Ne.symm slash]
        · rwa [typeSpec?, trim_trim]
      · exact absurd rfl outside
  | false =>
    have spelled : ∀ spec, afterClauseWord? "type".toList line = some spec ↔ _ :=
      fun _ => afterClauseWord?_eq_some_iff isWord_type
    simp only [specOfLine?, Bool.false_eq_true, if_false]
    constructor
    · rintro ⟨spec, kind, found, read⟩
      obtain ⟨firm, before, gap, beforeBlank, apart, gapBlank, same⟩ := (spelled spec).mp found
      obtain ⟨word, indent, rest, blank, stops, rfl, some⟩ := exists_typeSpec?_iff.mp ⟨kind, read⟩
      refine ⟨rest, ⟨word, stops, before, beforeBlank, .inr ⟨id, gap ++ indent, ?_, ?_, ?_⟩⟩, some⟩
      · simp [apart]
      · intro c member
        rcases List.mem_append.mp member with first | later
        · exact gapBlank c first
        · exact blank c later
      · simpa using same
    · rintro ⟨rest, ⟨word, stops, before, beforeBlank, ⟨inside, -⟩ | ⟨-, gap, apart, gapBlank, same⟩⟩,
        some⟩
      · exact absurd inside id
      · have none : AllBlank [] := by
          intro c member
          cases member
        obtain ⟨kind, read⟩ := exists_typeSpec?_iff.mpr ⟨word, [], rest, none, stops, rfl, some⟩
        have firm : StartsFirm (name ++ rest) := word.startsFirm.append word.1
        exact ⟨_, kind, (spelled _).mpr ⟨firm, before, gap, beforeBlank, apart, gapBlank, same⟩, read⟩

theorem NameStands.isInfix {grouped : Prop} {rest : Text} (stands : NameStands grouped name line rest) :
    name <:+: line := by
  obtain ⟨-, -, indent, -, ⟨-, rfl⟩ | ⟨-, gap, -, -, rfl⟩⟩ := stands
  · exact ⟨indent, rest, List.append_assoc _ _ _⟩
  · exact ⟨indent ++ ("type".toList ++ gap), rest, by simp⟩

/-- A line that declares something does not begin or end a group. -/
theorem NameStands.isInner {grouped : Bool} (stands : NameStands (grouped = true) name line rest) :
    IsInner grouped line := by
  obtain ⟨word, -, indent, blank, ⟨rfl, rfl⟩ | ⟨outside, gap, apart, gapBlank, rfl⟩⟩ := stands
  · exact ⟨not_isGroupEnd_of_isWord blank word rest, rfl⟩
  · obtain rfl : grouped = false := by simpa using outside
    refine ⟨rfl, ?_⟩
    have after : after? "type".toList (trimLeft (indent ++ ("type".toList ++ (gap ++ (name ++ rest))))) =
        some (gap ++ (name ++ rest)) := by
      rw [trimLeft_word blank isWord_type, after?_append]
    have named : (some (gap ++ (name ++ rest))).map trimLeft = some (name ++ rest) := by
      rw [Option.map_some, trimLeft_word gapBlank word]
    refine Item.isGroupStart_eq_false (after ▸ named) ?_
    intro c first
    rw [head?_append_of_ne_nil word.1] at first
    exact word.2 c (List.mem_of_mem_head? first)

/-! ## The reader, line by line -/

/-- The declaration that begins on a line, where it is not in a body. -/
def declOn? (grouped : Bool) (number : Nat) (line : Text) (rest : List Text) : Option TypeDecl :=
  if grouped && isGroupEnd line || !grouped && isGroupStart "type".toList line then none
  else (specOfLine? grouped line).bind fun spec => typeDecl? spec number (line :: rest)

theorem typesFrom_cons (grouped : Bool) (number : Nat) (line : Text) (rest : List Text) :
    typesFrom grouped 0 number (line :: rest) =
      (declOn? grouped number line rest).toList ++ typesFrom (groupedAfter grouped line)
        ((declOn? grouped number line rest).elim 0 fun decl => decl.last - decl.first)
        (number + 1) rest := by
  rw [typesFrom, declOn?]
  cases grouped with
  | true =>
    by_cases ends : isGroupEnd line = true
    · simp [groupedAfter, ends]
    · simp only [Bool.not_eq_true] at ends
      cases declared : (specOfLine? true line).bind fun spec => typeDecl? spec number (line :: rest) <;>
        simp [groupedAfter, ends]
  | false =>
    have after : groupedAfter false line = isGroupStart "type".toList line := rfl
    rw [after]
    by_cases starts : isGroupStart "type".toList line = true
    · rw [starts]
      rfl
    · simp only [Bool.not_eq_true] at starts
      rw [starts]
      cases declared : (specOfLine? false line).bind fun spec => typeDecl? spec number (line :: rest) <;>
        simp

/-- What is known after a line: whether a group is open, how many of the next lines belong to a
declaration, and the declaration that began on it. -/
structure LineRead where
  grouped : Bool
  skip : Nat
  begun : List TypeDecl

/-- One line, where `skip` lines from it on belong to the declaration before. -/
def lineRead (grouped : Bool) (skip number : Nat) (line : Text) (rest : List Text) : LineRead :=
  match skip with
  | skip + 1 => ⟨grouped, skip, []⟩
  | 0 => ⟨groupedAfter grouped line,
      (declOn? grouped number line rest).elim 0 fun decl => decl.last - decl.first,
      (declOn? grouped number line rest).toList⟩

theorem typesFrom_lineRead (grouped : Bool) (skip number : Nat) (line : Text) (rest : List Text) :
    typesFrom grouped skip number (line :: rest) =
      (lineRead grouped skip number line rest).begun ++
        typesFrom (lineRead grouped skip number line rest).grouped
          (lineRead grouped skip number line rest).skip (number + 1) rest := by
  cases skip with
  | zero => exact typesFrom_cons grouped number line rest
  | succ skip => rw [typesFrom, lineRead, List.nil_append]

theorem exists_declOn?_iff (grouped : Bool) (number : Nat) (line : Text) (rest : List Text) :
    (∃ decl, declOn? grouped number line rest = some decl ∧ decl.name = name) ↔
      ∃ rest, NameStands (grouped = true) name line rest ∧ ∃ c ∈ rest, isBlank c = false := by
  rw [← exists_specOfLine?_iff, declOn?]
  constructor
  · rintro ⟨decl, found, rfl⟩
    split_ifs at found
    obtain ⟨spec, read, declared⟩ := Option.bind_eq_some_iff.mp found
    obtain ⟨⟨name, kind⟩, named, rfl⟩ := Option.map_eq_some_iff.mp declared
    exact ⟨spec, kind, read, named⟩
  · rintro ⟨spec, kind, read, named⟩
    obtain ⟨_, stands, -⟩ := (exists_specOfLine?_iff grouped).mp ⟨spec, kind, read, named⟩
    obtain ⟨open_, closed⟩ := stands.isInner
    rw [open_, closed, read]
    simp [typeDecl?, named]

theorem bounds_of_declOn? {grouped : Bool} {rest : List Text} {decl : TypeDecl}
    (found : declOn? grouped number line rest = some decl) :
    decl.first = number ∧ decl.first ≤ decl.last := by
  unfold declOn? at found
  split_ifs at found
  obtain ⟨spec, -, declared⟩ := Option.bind_eq_some_iff.mp found
  obtain ⟨_, -, rfl⟩ := Option.map_eq_some_iff.mp declared
  refine ⟨rfl, ?_⟩
  dsimp only
  split_ifs
  · exact Nat.le_add_right _ _
  · exact Nat.le_refl _

theorem last_of_declOn? {grouped : Bool} {rest : List Text} {decl : TypeDecl}
    (found : declOn? grouped number line rest = some decl) :
    decl.last ≤ number + rest.length ∧ (decl.kind = .synonym ∨ decl.kind = .named → decl.last = decl.first) := by
  unfold declOn? at found
  split_ifs at found
  obtain ⟨spec, -, declared⟩ := Option.bind_eq_some_iff.mp found
  obtain ⟨⟨name, kind⟩, -, rfl⟩ := Option.map_eq_some_iff.mp declared
  have scanned := BraceScan.start.linesToClose_lt (List.cons_ne_nil line rest)
  rw [List.length_cons] at scanned
  by_cases braced : isBraced kind spec = true
  · refine ⟨?_, ?_⟩
    · simp only [braced, if_true]
      omega
    · rintro (rfl | rfl) <;> cases braced
  · simp [braced]

/-- The state of the reader after a number of lines: the declarations that began on them, whether a
group is open, and how many of the next lines belong to the last declaration. -/
structure Reached (lines : List Text) (number : Nat) (grouped : Bool) (skip : Nat)
    (begun : List TypeDecl) : Prop where
  split : typesOf lines = begun ++ typesFrom grouped skip (number + 1) (lines.drop number)
  above : ∀ decl ∈ begun, decl.first ≤ number
  within : ∀ decl ∈ begun, decl.last ≤ number + skip
  skipped : 0 < skip → ∃ decl ∈ begun, decl.last = number + skip
  group : grouped = true ↔ InGroup (¬InBody lines ·) lines (number + 1)

namespace Reached

variable {grouped : Bool} {skip : Nat} {begun : List TypeDecl}

theorem start (lines : List Text) : Reached lines 0 false 0 [] where
  split := rfl
  above := by simp
  within := by simp
  skipped := by simp
  group := by simp [not_inGroup_first]

/-- The next line is in a body just if it is skipped. -/
theorem inBody_iff (reached : Reached lines number grouped skip begun) :
    InBody lines (number + 1) ↔ 0 < skip := by
  constructor
  · rintro ⟨decl, member, before, after⟩
    rw [reached.split] at member
    rcases List.mem_append.mp member with earlier | later
    · have := reached.within decl earlier
      omega
    · have := ((typesFrom_ascending _ _ _ _).2 decl later).1
      omega
  · intro positive
    obtain ⟨decl, member, last⟩ := reached.skipped positive
    refine ⟨decl, ?_, ?_, by omega⟩
    · rw [reached.split]
      exact List.mem_append_left _ member
    · have := reached.above decl member
      omega

/-- One more line. -/
theorem next (reached : Reached lines number grouped skip begun) {rest : List Text}
    (left : lines.drop number = line :: rest) :
    Reached lines (number + 1) (lineRead grouped skip (number + 1) line rest).grouped
      (lineRead grouped skip (number + 1) line rest).skip
      (begun ++ (lineRead grouped skip (number + 1) line rest).begun) := by
  obtain ⟨found, later⟩ := lineAt?_of_drop left
  have passed := reached.inBody_iff
  have split := reached.split
  have group := reached.group
  have above : ∀ decl ∈ begun, decl.first ≤ number + 1 := by
    intro decl member
    have := reached.above decl member
    omega
  rw [left, typesFrom_lineRead, ← List.append_assoc] at split
  cases skip with
  | succ skip =>
    refine ⟨by rw [later, split], by simpa [lineRead] using above, ?_, ?_, ?_⟩
    · intro decl member
      have := reached.within decl (by simpa [lineRead] using member)
      simp only [lineRead]
      omega
    · intro _
      obtain ⟨decl, member, last⟩ := reached.skipped (by omega)
      exact ⟨decl, by simpa [lineRead] using member, by simp only [lineRead]; omega⟩
    · have inBody : InBody lines (number + 1) := passed.mpr (by omega)
      rw [inGroup_succ found]
      simp [lineRead, inBody, group]
  | zero =>
    have counts : ¬InBody lines (number + 1) := by simp [passed]
    have within : ∀ decl ∈ begun, decl.last ≤ number := by
      intro decl member
      have := reached.within decl member
      omega
    have after := groupedAfter_iff found counts group
    cases declared : declOn? grouped (number + 1) line rest with
    | none =>
      simp only [lineRead, declared] at split ⊢
      refine ⟨by rw [later, split], by simpa using above, ?_, by simp, after⟩
      intro decl member
      have := within decl (by simpa using member)
      omega
    | some decl =>
      obtain ⟨first, ordered⟩ := bounds_of_declOn? declared
      simp only [lineRead, declared] at split ⊢
      refine ⟨by rw [later, split], ?_, ?_, ?_, after⟩
      · intro other member
        rcases List.mem_append.mp member with earlier | same
        · exact above other earlier
        · obtain rfl := List.mem_singleton.mp same
          omega
      · intro other member
        rcases List.mem_append.mp member with earlier | same
        · have := within other earlier
          omega
        · obtain rfl := List.mem_singleton.mp same
          simp only [Option.elim_some]
          omega
      · intro _
        exact ⟨decl, by simp, by simp only [Option.elim_some]; omega⟩

theorem exists_reached (inside : number ≤ lines.length) :
    ∃ grouped skip begun, Reached lines number grouped skip begun := by
  induction number with
  | zero => exact ⟨false, 0, [], start lines⟩
  | succ number ih =>
    obtain ⟨grouped, skip, begun, reached⟩ := ih (by omega)
    exact ⟨_, _, _, reached.next (List.drop_eq_getElem_cons inside)⟩

/-- What is declared on the next line. -/
theorem mem_typesOf_iff (reached : Reached lines number grouped skip begun)
    {others : List Text} (left : lines.drop number = line :: others) (decl : TypeDecl) :
    decl ∈ typesOf lines ∧ decl.first = number + 1 ↔
      skip = 0 ∧ declOn? grouped (number + 1) line others = some decl := by
  have below : ∀ {grouped skip}, decl ∈ typesFrom grouped skip (number + 1 + 1) others →
      number + 1 < decl.first := by
    intro grouped skip later
    have := ((typesFrom_ascending _ _ _ _).2 decl later).1
    omega
  rw [reached.split, left, List.mem_append]
  cases skip with
  | succ skip =>
    rw [typesFrom]
    constructor
    · rintro ⟨earlier | later, first⟩
      · have := reached.above decl earlier
        omega
      · have := below later
        omega
    · rintro ⟨none, -⟩
      omega
  | zero =>
    rw [typesFrom_cons, List.mem_append, Option.mem_toList]
    constructor
    · rintro ⟨earlier | here | later, first⟩
      · have := reached.above decl earlier
        omega
      · exact ⟨rfl, here⟩
      · have := below later
        omega
    · rintro ⟨-, here⟩
      exact ⟨.inr (.inl here), (bounds_of_declOn? here).1⟩

theorem first_le_length (decl : TypeDecl) (member : decl ∈ typesOf lines) : decl.first ≤ lines.length := by
  obtain ⟨grouped, skip, begun, reached⟩ := exists_reached (Nat.le_refl lines.length)
  rw [reached.split, List.drop_length, typesFrom, List.append_nil] at member
  exact reached.above decl member

end Reached

/-- A type is declared on the lines that its name stands on and something after it, unless they are in
the body of another declaration. -/
theorem exists_mem_typesOf_iff :
    (∃ decl ∈ typesOf lines, decl.name = name ∧ decl.first = number) ↔
      ¬InBody lines number ∧ ∃ line rest, lineAt? lines number = some line ∧
        NameStands (InGroup (¬InBody lines ·) lines number) name line rest ∧
          ∃ c ∈ rest, isBlank c = false := by
  cases number with
  | zero =>
    constructor
    · rintro ⟨decl, member, -, first⟩
      have := ((typesOf_ascending lines).2 decl member).1
      omega
    · rintro ⟨-, line, rest, found, -⟩
      cases found
  | succ number =>
    by_cases inside : number < lines.length
    · obtain ⟨line, others, left⟩ : ∃ line others, lines.drop number = line :: others :=
        ⟨_, _, List.drop_eq_getElem_cons inside⟩
      obtain ⟨found, -⟩ := lineAt?_of_drop left
      obtain ⟨grouped, skip, begun, reached⟩ := Reached.exists_reached (Nat.le_of_lt inside)
      have body := reached.inBody_iff
      have each : (∃ decl, declOn? grouped (number + 1) line others = some decl ∧ decl.name = name) ↔ _ :=
        exists_declOn?_iff grouped (number + 1) line others
      rw [← propext reached.group, body, Nat.not_lt, Nat.le_zero]
      constructor
      · rintro ⟨decl, member, named, first⟩
        obtain ⟨whole, declared⟩ := (reached.mem_typesOf_iff left decl).mp ⟨member, first⟩
        obtain ⟨rest, stands, some⟩ := each.mp ⟨decl, declared, named⟩
        exact ⟨whole, line, rest, found, stands, some⟩
      · rintro ⟨whole, other, rest, same, stands, some⟩
        obtain rfl := Option.some.inj (found.symm.trans same)
        obtain ⟨decl, declared, named⟩ := each.mpr ⟨rest, stands, some⟩
        obtain ⟨member, first⟩ := (reached.mem_typesOf_iff left decl).mpr ⟨whole, declared⟩
        exact ⟨decl, member, named, first⟩
    · constructor
      · rintro ⟨decl, member, -, first⟩
        have := Reached.first_le_length decl member
        omega
      · rintro ⟨-, line, rest, found, -⟩
        have := (List.getElem?_eq_some_iff.mp found).1
        omega

end

end ApiNotes.Go
