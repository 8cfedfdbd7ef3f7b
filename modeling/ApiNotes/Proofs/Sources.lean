import ApiNotes.Go.File
import ApiNotes.Proofs.Totality
import ApiNotes.Proofs.TypeSpecs

/-!
# Sources and their type declarations

A `Go.Source` is a source text by its lines: declarations of types, alone or in groups, and lines that
declare none. The types that are read from such a text are those that it declares, with their names, kinds
and lines (`Go.Source.types_read`).
-/

namespace ApiNotes.Go

open Text

/-! ## Sources as they are written -/

/-- What may stand in a group. -/
inductive Member where
  | blank (space : Spacing)
  | comment (indent : Spacing) (text : LineText)
  | declaration (indent : Spacing) (spec : Spec)

namespace Member

def text : Member → Text
  | blank space => space.text
  | comment indent text => indent.text ++ '/' :: '/' :: text.text
  | declaration indent spec => indent.text ++ spec.text

def lines (member : Member) : List Text := member.text.splitOn '\n'

def decls (number : Nat) : Member → List TypeDecl
  | declaration _ spec => [spec.decl number]
  | _ => []

def declsFrom (number : Nat) : List Member → List TypeDecl
  | [] => []
  | member :: more => member.decls number ++ declsFrom (number + member.lines.length) more

end Member

/-- A line whose first word is not `type`. -/
structure Filler extends LineText where
  typeless : ∀ indent more, AllBlank indent → text = indent ++ ("type".toList ++ more) →
    ∃ c ∈ more.head?, isWord c = true

/-- What a source is made of. -/
inductive Item where
  | filler (line : Filler)
  | single (indent : Spacing) (spec : Spec)
  | group (indent : Spacing) (members : List Member) (closing : Spacing)

namespace Item

def texts : Item → List Text
  | filler line => [line.text]
  | single indent spec => [indent.text ++ ("type ".toList ++ spec.text)]
  | group indent members closing =>
    (indent.text ++ "type (".toList) :: (members.map (·.text) ++ [closing.text ++ [')']])

def lines (item : Item) : List Text := item.texts.flatMap (·.splitOn '\n')

def decls (number : Nat) : Item → List TypeDecl
  | filler _ => []
  | single _ spec => [spec.decl number]
  | group _ members _ => Member.declsFrom (number + 1) members

end Item

/-- A source, item by item. -/
abbrev Source := List Item

namespace Source

def text (source : Source) : Text := ['\n'].intercalate (source.flatMap (·.texts))

def declsFrom (number : Nat) : List Item → List TypeDecl
  | [] => []
  | item :: more => item.decls number ++ declsFrom (number + item.lines.length) more

def decls (source : Source) : List TypeDecl := declsFrom 1 source

end Source

/-! ## Reading line by line -/

section Lines

variable {grouped : Bool} {line : Text}

/-- Neither the end of the group that it is in nor, outside of groups, the start of one. -/
def IsInner (grouped : Bool) (line : Text) : Prop :=
  (grouped && isGroupEnd line) = false ∧ (!grouped && isGroupStart "type".toList line) = false

theorem typesFrom_skip (grouped : Bool) (number : Nat) (lines rest : List Text) :
    typesFrom grouped lines.length number (lines ++ rest) =
      typesFrom grouped 0 (number + lines.length) rest := by
  induction lines generalizing number with
  | nil => rfl
  | cons line lines ih =>
    rw [List.cons_append, List.length_cons, typesFrom, ih]
    congr 1
    omega

/-- Lines that belong to the declaration before are passed at once. -/
theorem typesFrom_drop {skip : Nat} {lines : List Text} (enough : skip ≤ lines.length) (grouped : Bool)
    (number : Nat) :
    typesFrom grouped skip number lines = typesFrom grouped 0 (number + skip) (lines.drop skip) := by
  have passed := typesFrom_skip grouped number (lines.take skip) (lines.drop skip)
  rwa [List.length_take_of_le enough, List.take_append_drop] at passed

/-- After a declaration the lines up to its last one are passed over. -/
theorem typesFrom_decl (inner : IsInner grouped line) {text : Text} {decl : TypeDecl} {number : Nat}
    {others rest : List Text} (found : specOfLine? grouped line = some text)
    (read : typeDecl? text number (line :: (others ++ rest)) = some decl)
    (length : decl.last - decl.first = others.length) :
    typesFrom grouped 0 number (line :: (others ++ rest)) =
      decl :: typesFrom grouped 0 (number + (others.length + 1)) rest := by
  rw [typesFrom, inner.1, inner.2, found, Option.bind_some, read]
  simp only [Bool.false_eq_true, if_false]
  rw [length, typesFrom_skip, Nat.add_assoc, Nat.add_comm 1]

/-- A line on which nothing begins or ends. -/
def IsIdle (grouped : Bool) (line : Text) : Prop :=
  IsInner grouped line ∧ specOfLine? grouped line = none

/-- Such a line is passed over. -/
theorem typesFrom_idle (idle : IsIdle grouped line) (oneLine : '\n' ∉ line) (number : Nat)
    (rest : List Text) : typesFrom grouped 0 number (line.splitOn '\n' ++ rest) =
      typesFrom grouped 0 (number + (line.splitOn '\n').length) rest := by
  obtain ⟨inner, none⟩ := idle
  rw [List.splitOn_eq_singleton oneLine, List.singleton_append, typesFrom, inner.1, inner.2, none]
  rfl

theorem typesFrom_groupStart (starts : isGroupStart "type".toList line = true) (number : Nat)
    (rest : List Text) : typesFrom false 0 number (line :: rest) = typesFrom true 0 (number + 1) rest := by
  rw [typesFrom, starts]
  rfl

theorem typesFrom_groupEnd (ends : isGroupEnd line = true) (number : Nat) (rest : List Text) :
    typesFrom true 0 number (line :: rest) = typesFrom false 0 (number + 1) rest := by
  rw [typesFrom, ends]
  rfl

/-- After `before` the declaration is looked for from its name on, whatever follows on the line. What is
taken for it has nothing after its front where the line has nothing. -/
def Spec.BeginsOn (spec : Spec) (grouped : Bool) (before : Text) : Prop :=
  ∀ more, IsInner grouped (before ++ (spec.front ++ more)) ∧ ∃ tail, (more = [] → tail = []) ∧
    specOfLine? grouped (before ++ (spec.front ++ more)) = some (spec.front ++ tail)

/-- A declaration is read where it begins, and passed over. -/
theorem Spec.typesFrom_lines {spec : Spec} {before : Text} (begins : spec.BeginsOn grouped before)
    (oneLine : '\n' ∉ before) (plain : ∀ c ∈ before, ¬IsSign c) (number : Nat) (rest : List Text) :
    typesFrom grouped 0 number ((before ++ spec.text).splitOn '\n' ++ rest) =
      spec.decl number ::
        typesFrom grouped 0 (number + ((before ++ spec.text).splitOn '\n').length) rest := by
  obtain ⟨more, others, lines, length, alone⟩ := spec.splitOn_lines oneLine
  obtain ⟨inner, tail, same, found⟩ := begins more
  have read := spec.typeDecl?_front oneLine plain (fun single => same (alone single)) number rest
  rw [lines, List.cons_append] at read
  rw [lines, List.cons_append, List.length_cons, typesFrom_decl inner found read]
  rw [Spec.decl, length, Nat.add_sub_cancel_left]

end Lines

/-! ### Lines of a group -/

namespace Member

/-- A declaration in a group begins on its first line. -/
theorem beginsOn (indent : Spacing) (spec : Spec) : spec.BeginsOn true indent.text := by
  intro more
  have trimmed : trim (indent.text ++ (spec.front ++ more)) = spec.front ++ trimRight more :=
    trim_append_firm indent.blank spec.front_startsFirm spec.front_endsFirm spec.front_ne_nil more
  have head := spec.isWord_of_head (trimRight more)
  have unended : isGroupEnd (indent.text ++ (spec.front ++ more)) = false := by
    rw [isGroupEnd, trimmed, decide_eq_false_iff_not]
    intro ends
    exact absurd (head ')' ends) (by decide)
  have uncommented : startsWith ['/', '/'] (spec.front ++ trimRight more) = false := by
    rw [startsWith, Option.isSome_eq_false_iff, Option.isNone_iff_eq_none, Option.eq_none_iff_forall_ne_some]
    intro rest after
    have slash : '/' ∈ (spec.front ++ trimRight more).head? := by simp [eq_append_of_after? after]
    exact absurd (head '/' slash) (by decide)
  refine ⟨⟨by simp [unended], rfl⟩, trimRight more, ?_, ?_⟩
  · rintro rfl
    rfl
  · simp [specOfLine?, trimmed, uncommented, spec.front_ne_nil]

theorem isIdle_blank (space : Spacing) : IsIdle true space.text := by
  have trimmed : trim space.text = [] := by
    have only := trimLeft_append space.blank []
    rw [List.append_nil] at only
    rw [trim, only]
    rfl
  exact ⟨⟨by simp [isGroupEnd, trimmed], rfl⟩, by simp [specOfLine?, trimmed]⟩

theorem isIdle_comment (indent : Spacing) (text : Text) :
    IsIdle true (indent.text ++ (['/', '/'] ++ text)) := by
  have starts : StartsFirm ['/', '/'] := startsFirm_of_forall (by simp; decide)
  have trimmed : trim (indent.text ++ (['/', '/'] ++ text)) = ['/', '/'] ++ trimRight text :=
    trim_append_firm indent.blank starts (endsFirm_concat ['/'] (by decide)) (by simp) text
  have unended : isGroupEnd (indent.text ++ (['/', '/'] ++ text)) = false := by
    rw [isGroupEnd, trimmed]
    rfl
  have commented : startsWith ['/', '/'] (['/', '/'] ++ trimRight text) = true := by
    rw [startsWith, after?_append, Option.isSome_some]
  exact ⟨⟨unended, rfl⟩, by simp only [specOfLine?, trimmed, commented, Bool.or_true, if_true]⟩

theorem typesFrom_lines (member : Member) (number : Nat) (rest : List Text) :
    typesFrom true 0 number (member.lines ++ rest) =
      member.decls number ++ typesFrom true 0 (number + member.lines.length) rest := by
  cases member with
  | blank space => exact typesFrom_idle (isIdle_blank space) space.oneLine number rest
  | comment indent text =>
    have oneLine : '\n' ∉ indent.text ++ (['/', '/'] ++ text.text) := by
      simp [indent.oneLine, text.oneLine]
    exact typesFrom_idle (isIdle_comment indent text.text) oneLine number rest
  | declaration indent spec =>
    exact spec.typesFrom_lines (beginsOn indent spec) indent.oneLine
      (fun c member => not_isSign_of_isBlank (indent.blank c member)) number rest

/-- The declarations of a group are read one after the other. -/
theorem typesFrom_members (members : List Member) (number : Nat) (rest : List Text) :
    typesFrom true 0 number (members.flatMap lines ++ rest) =
      declsFrom number members ++ typesFrom true 0 (number + (members.flatMap lines).length) rest := by
  induction members generalizing number with
  | nil => rfl
  | cons member more ih =>
    rw [List.flatMap_cons, List.append_assoc, typesFrom_lines, ih, declsFrom, List.append_assoc,
      List.length_append, Nat.add_assoc]

end Member

/-! ### Lines of a source -/

namespace Item

theorem after?_type (indent : Spacing) (text : Text) :
    after? "type".toList (trimLeft (indent.text ++ ("type ".toList ++ text))) = some (' ' :: text) := by
  rw [trimLeft_append indent.blank]
  exact after?_append "type".toList (' ' :: text)

/-- What follows the keyword in the first line of a group begins with its parenthesis. -/
theorem isGroupStart_eq_false {word line rest : Text}
    (after : (after? word (trimLeft line)).map trimLeft = some rest)
    (inside : ∀ c ∈ rest.head?, isWord c = true) : isGroupStart word line = false := by
  rw [isGroupStart, after]
  split
  · rename_i more same
    exact absurd (inside '(' (by simp [Option.some.inj same])) (by decide)
  · rfl

/-- A declaration of its own begins on its first line. -/
theorem beginsOn (indent : Spacing) (spec : Spec) : spec.BeginsOn false (indent.text ++ "type ".toList) := by
  intro more
  have word := after?_type indent (spec.front ++ more)
  have blank : AllBlank [' '] := by decide
  have starts : StartsFirm (spec.front ++ more) := spec.front_startsFirm.append spec.front_ne_nil
  have unstarted :
      isGroupStart "type".toList (indent.text ++ ("type ".toList ++ (spec.front ++ more))) = false := by
    have after : trimLeft (' ' :: (spec.front ++ more)) = spec.front ++ more :=
      (trimLeft_append blank _).trans starts.trimLeft
    exact isGroupStart_eq_false (by rw [word, Option.map_some, after]) (spec.isWord_of_head more)
  have found : specOfLine? false (indent.text ++ ("type ".toList ++ (spec.front ++ more))) =
      some (spec.front ++ more) := by
    have skipped : afterBlanks? (' ' :: (spec.front ++ more)) = some (trimLeft (spec.front ++ more)) :=
      afterBlanks?_append blank (by simp) _
    rw [starts.trimLeft] at skipped
    rw [specOfLine?, if_neg Bool.false_ne_true, afterClauseWord?, word]
    exact skipped
  rw [List.append_assoc]
  exact ⟨⟨rfl, unstarted⟩, more, id, found⟩

/-- A filler neither declares a type nor begins a group. -/
theorem isIdle_filler (line : Filler) : IsIdle false line.text := by
  cases word : after? "type".toList (trimLeft line.text) with
  | none =>
    have unstarted : isGroupStart "type".toList line.text = false := by
      rw [isGroupStart, word]
      rfl
    have none : afterClauseWord? "type".toList line.text = none := by
      rw [afterClauseWord?, word]
      rfl
    exact ⟨⟨rfl, unstarted⟩, none⟩
  | some more =>
    obtain ⟨indent, blank, split⟩ := exists_trimLeft line.text
    rw [eq_append_of_after? word] at split
    obtain ⟨c, first, inside⟩ := line.typeless indent more blank split
    have head : ∀ d ∈ more.head?, isWord d = true := fun d same => Option.mem_unique first same ▸ inside
    have firm : StartsFirm more := fun d same => isBlank_of_isWord (head d same)
    have unstarted : isGroupStart "type".toList line.text = false :=
      isGroupStart_eq_false (by rw [word, Option.map_some, firm.trimLeft]) head
    have none : afterClauseWord? "type".toList line.text = none := by
      rw [afterClauseWord?, word]
      exact afterBlanks?_of_startsFirm firm
    exact ⟨⟨rfl, unstarted⟩, none⟩

/-- The lines of a group are its first line, those of its members and its last line. -/
theorem lines_group (indent : Spacing) (members : List Member) (closing : Spacing) :
    (group indent members closing).lines = (indent.text ++ ("type ".toList ++ ['('])) ::
      (members.flatMap Member.lines ++ [closing.text ++ [')']]) := by
  have first : '\n' ∉ indent.text ++ "type (".toList := by simp [indent.oneLine]
  have last : '\n' ∉ closing.text ++ [')'] := by simp [closing.oneLine]
  have middle : (members.map (·.text)).flatMap (·.splitOn '\n') = members.flatMap Member.lines := by
    rw [List.flatMap_map]
    rfl
  rw [lines, texts, List.flatMap_cons, List.flatMap_append, List.splitOn_eq_singleton first, middle]
  simp [List.splitOn_eq_singleton last]

theorem isGroupStart_first (indent : Spacing) :
    isGroupStart "type".toList (indent.text ++ ("type ".toList ++ ['('])) = true := by
  rw [isGroupStart, after?_type]
  rfl

theorem isGroupEnd_last (closing : Spacing) : isGroupEnd (closing.text ++ [')']) = true := by
  have starts : StartsFirm [')'] := startsFirm_of_forall (by simp; decide)
  have trimmed : trim (closing.text ++ ([')'] ++ [])) = [')'] ++ trimRight [] :=
    trim_append_firm closing.blank starts (endsFirm_concat [] (by decide)) (by simp) []
  rw [List.append_nil] at trimmed
  rw [isGroupEnd, trimmed]
  rfl

theorem typesFrom_lines (item : Item) (number : Nat) (rest : List Text) :
    typesFrom false 0 number (item.lines ++ rest) =
      item.decls number ++ typesFrom false 0 (number + item.lines.length) rest := by
  cases item with
  | filler line =>
    have lines : (filler line).lines = line.text.splitOn '\n' := by simp [Item.lines, texts]
    rw [lines]
    exact typesFrom_idle (isIdle_filler line) line.oneLine number rest
  | single indent spec =>
    have oneLine : '\n' ∉ indent.text ++ "type ".toList := by simp [indent.oneLine]
    have plain : ∀ c ∈ indent.text ++ "type ".toList, ¬IsSign c := by
      intro c member
      rcases List.mem_append.mp member with space | keyword
      · exact not_isSign_of_isBlank (indent.blank c space)
      have known : "type ".toList.all (fun c => isWord c || isBlank c) = true := by decide
      rcases (Bool.or_eq_true ..).mp (List.all_eq_true.mp known c keyword) with word | space
      · exact not_isSign_of_isWord word
      · exact not_isSign_of_isBlank space
    have lines : (single indent spec).lines =
        (indent.text ++ "type ".toList ++ spec.text).splitOn '\n' := by
      simp [Item.lines, texts]
    rw [lines]
    exact spec.typesFrom_lines (beginsOn indent spec) oneLine plain number rest
  | group indent members closing =>
    rw [lines_group, List.cons_append, typesFrom_groupStart (isGroupStart_first indent), List.append_assoc,
      Member.typesFrom_members, List.singleton_append, typesFrom_groupEnd (isGroupEnd_last closing), decls]
    congr 2
    simp
    omega

end Item

namespace Source

theorem typesFrom_items (items : List Item) (number : Nat) :
    typesFrom false 0 number (items.flatMap (·.lines)) = declsFrom number items := by
  induction items generalizing number with
  | nil => rfl
  | cons item more ih => rw [List.flatMap_cons, Item.typesFrom_lines, ih, declsFrom]

/-- The types that are read from a source are the ones that it declares. -/
theorem typesOf_lines (source : Source) : typesOf (source.text.splitOn '\n') = source.decls := by
  cases source with
  | nil => rfl
  | cons item more =>
    have some : List.flatMap (fun item : Item => item.texts) (item :: more) ≠ [] := by
      cases item <;> simp [Item.texts]
    rw [text, splitOn_intercalate some, List.flatMap_assoc]
    exact typesFrom_items (item :: more) 1

/-- The types that are read from a source are the ones that it declares. A file is read from it unless a
line at or after a marker spells too long a status code. -/
theorem types_read (source : Source) (name marker : Text) :
    typesOf (source.text.splitOn '\n') = source.decls ∧
      ((∃ file, GoFile.ofSource name marker source.text = .ok file ∧ file.types = source.decls) ↔
        NoneTooLong (source.text.splitOn '\n') (AfterMarker marker (source.text.splitOn '\n'))) := by
  have types := source.typesOf_lines
  refine ⟨types, ?_⟩
  rw [← Note.exists_ofLines_iff_noneTooLong]
  unfold GoFile.ofSource
  cases notes : Note.ofLines marker (source.text.splitOn '\n') <;>
    simp [notes, bind, Except.bind, pure, Except.pure, types]

/-- A comment is a line that declares nothing. -/
def comment (text : Text) (oneLine : '\n' ∉ text) : Item := .filler {
  text := '/' :: '/' :: text
  oneLine := by simp [oneLine]
  typeless := by
    intro indent more blank split
    cases indent with
    | nil => exact absurd (List.cons.inj split).1 (by decide)
    | cons c indent =>
      obtain rfl := (List.cons.inj split).1
      exact absurd (blank '/' (by simp)) (by decide) }

/-- A struct over two lines, below a marker and an outcome with too long a status code. -/
def unreadable : Source :=
  [comment " godoc".toList (by decide),
    comment (" @Success ".toList ++ List.replicate 4301 '9' ++ " {object} b.T".toList) (by decide +kernel),
    .single Clause.singleSpaced.indent ⟨"T".toList, ⟨by decide, List.all_eq_true.mp (by decide)⟩,
      .braced .struct none ⟨['\n'], .plain '\n' [] (by simp [IsSign]) .nil⟩ ⟨" // empty".toList, by decide⟩⟩]

/-- No file is read from that source, though it declares a type. -/
theorem unreadable_fails : unreadable.decls = [⟨"T".toList, .struct, 3, 4⟩] ∧
    GoFile.ofSource GoFile.unnamed defaultMarker unreadable.text = .error ⟨4301⟩ :=
  ⟨by decide +kernel, by decide +kernel⟩

end Source

end ApiNotes.Go
