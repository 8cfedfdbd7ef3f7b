import ApiNotes.Go.Types
import ApiNotes.Proofs.Braces
import ApiNotes.Proofs.Rendering

/-!
# How types are declared

A `Go.Spec` is the declaration of one type as it is written: a name, and after it the type that the name
stands for, a representation, or the body of a struct or an interface. A body may go over any number of
lines, with anything in it whose braces are well nested (`Go.IsBody`). The name and the kind are read from
the first line, and the declaration ends where its brace closes (`Go.Spec.typeDecl?_front`).
-/

namespace ApiNotes.Go

open Text

/-! ## Declarations as they are written -/

/-- A text of one line. -/
structure LineText where
  text : Text
  oneLine : '\n' ∉ text

/-- A type as it stands at the end of a line. -/
structure TypeText extends Clause.Phrase where
  nonempty : text ≠ []

/-- The type that a named type is made of. -/
structure Representation extends TypeText where
  unequal : text.head? ≠ some '='
  unbracketed : text.head? ≠ some '['
  /-- It begins neither with the word `struct` nor with the word `interface`. -/
  unreserved : ∀ word ∈ ["struct".toList, "interface".toList], ∀ more, text = word ++ more →
    ∃ c ∈ more.head?, isWord c = true

/-- The text of type parameters, without its brackets. -/
structure Parameters extends LineText where
  plain : ∀ c ∈ text, ¬IsSign c
  unclosed : ']' ∉ text

/-- What stands between the braces of a type. -/
structure Body where
  text : Text
  nested : IsBody text

inductive Braced where
  | struct
  | interface

def Braced.text : Braced → Text
  | .struct => "struct".toList
  | .interface => "interface".toList

theorem Braced.isWord_text (kind : Braced) : ∀ c ∈ kind.text, isWord c = true := by
  cases kind <;> exact List.all_eq_true.mp (by decide)

/-- What a name is declared as. After the closing brace anything may follow on its line. -/
inductive Meaning where
  | synonym (type : TypeText)
  | named (type : Representation)
  | braced (kind : Braced) (parameters : Option Parameters) (body : Body) (tail : LineText)

namespace Meaning

def kind : Meaning → TypeKind
  | synonym _ => .synonym
  | named _ => .named
  | braced .struct .. => .struct
  | braced .interface .. => .interface

/-- Type parameters in brackets. -/
def parametersText : Option Parameters → Text
  | none => []
  | some parameters => '[' :: (parameters.text ++ [']'])

/-- What stands after the name, up to the opening brace if there is one. -/
def opening : Meaning → Text
  | synonym type => " = ".toList ++ type.text
  | named type => ' ' :: type.text
  | braced kind parameters _ _ => parametersText parameters ++ ' ' :: (kind.text ++ [' ', '{'])

def rest : Meaning → Text
  | braced _ _ body tail => body.text ++ '}' :: tail.text
  | _ => []

end Meaning

/-- A name and what it is declared as. -/
structure Spec where
  name : Text
  word : IsWord name
  meaning : Meaning

namespace Spec

/-- The declaration up to its opening brace, all of it where it has none. -/
def front (spec : Spec) : Text := spec.name ++ spec.meaning.opening

def text (spec : Spec) : Text := spec.front ++ spec.meaning.rest

/-- The declaration in a text in which it begins on a line. -/
def decl (spec : Spec) (number : Nat) : TypeDecl where
  name := spec.name
  kind := spec.meaning.kind
  first := number
  last := number + spec.text.count '\n'

end Spec

/-! ## Reading one declaration -/

theorem not_isSign_of_isWord {c : Char} (word : isWord c = true) : ¬IsSign c := by
  intro sign
  have other : ['{', '}', '"', '\x60', '/'].all fun c => !isWord c := by decide
  have none := List.all_eq_true.mp other c sign
  simp [word] at none

theorem not_isSign_of_isBlank {c : Char} (blank : isBlank c = true) : ¬IsSign c := by
  intro sign
  have other : ['{', '}', '"', '\x60', '/'].all fun c => !isBlank c := by decide
  have none := List.all_eq_true.mp other c sign
  simp [blank] at none

theorem startsWithWord_eq_false {word text : Text}
    (longer : ∀ more, text = word ++ more → ∃ c ∈ more.head?, isWord c = true)
    (whole : word.getLast?.any isWord = true) : startsWithWord word text = false := by
  unfold startsWithWord
  cases after : after? word text with
  | none => rfl
  | some more =>
    obtain ⟨c, first, inside⟩ := longer more (eq_append_of_after? after)
    have head : more.head?.any isWord = true := by simp [Option.mem_def.mp first, inside]
    simp [isWordEdge, whole, head]

namespace Meaning

variable {meaning : Meaning}

theorem opening_stops (meaning : Meaning) (more : Text) :
    ∀ c ∈ (meaning.opening ++ more).head?, isWord c = false := by
  intro c first
  match meaning with
  | synonym _ | named _ | braced _ none _ _ =>
    obtain rfl : ' ' = c := by simpa [opening, parametersText] using first
    decide
  | braced _ (some _) _ _ =>
    obtain rfl : '[' = c := by simpa [opening, parametersText] using first
    decide

theorem opening_endsFirm (meaning : Meaning) : EndsFirm meaning.opening := by
  cases meaning with
  | synonym type => exact type.endsFirm.append type.nonempty _
  | named type => exact type.endsFirm.append type.nonempty [' ']
  | braced kind parameters =>
    have ends := endsFirm_concat (parametersText parameters ++ ' ' :: (kind.text ++ [' '])) (c := '{')
      (by decide)
    simpa [opening] using ends

theorem opening_ne_nil (meaning : Meaning) : meaning.opening ≠ [] := by
  cases meaning <;> simp [opening]

theorem afterTypeParameters_append (parameters : Parameters) (more : Text) :
    afterTypeParameters ('[' :: (parameters.text ++ ']' :: more)) = trimLeft more := by
  have closed : (parameters.text ++ ']' :: more).contains ']' = true := by simp
  rw [afterTypeParameters, if_pos closed, dropWhile_ne_append parameters.unclosed]
  rfl

theorem afterTypeParameters_of_head {text : Text} (unbracketed : text.head? ≠ some '[') :
    afterTypeParameters text = text := by
  unfold afterTypeParameters
  split
  · exact absurd rfl unbracketed
  · rfl

theorem afterTypeParameters_braced (kind : Braced) (parameters : Option Parameters) (more : Text) :
    afterTypeParameters (trimLeft (parametersText parameters ++ ' ' :: (kind.text ++ ' ' :: more))) =
      kind.text ++ ' ' :: more := by
  cases parameters with
  | none => cases kind <;> rfl
  | some parameters =>
    have inside := afterTypeParameters_append parameters (' ' :: (kind.text ++ ' ' :: more))
    have bracket : trimLeft ('[' :: (parameters.text ++ ']' :: ' ' :: (kind.text ++ ' ' :: more))) =
        '[' :: (parameters.text ++ ']' :: ' ' :: (kind.text ++ ' ' :: more)) := rfl
    rw [parametersText, List.cons_append, List.append_assoc, List.singleton_append, bracket, inside]
    cases kind <;> rfl

/-- What follows the name says what the name is declared as. -/
theorem kindOfRest_opening (meaning : Meaning) (more : Text) (alone : meaning.rest = [] → more = []) :
    kindOfRest (meaning.opening ++ more) = meaning.kind := by
  cases meaning with
  | synonym type => rfl
  | named type =>
    obtain rfl := alone rfl
    have struct := startsWithWord_eq_false (type.unreserved "struct".toList (by simp)) (by decide)
    have interface := startsWithWord_eq_false (type.unreserved "interface".toList (by simp)) (by decide)
    have space : AllBlank [' '] := by decide
    have text : trimLeft (' ' :: (type.text ++ [])) = type.text := by
      rw [List.append_nil]
      exact (trimLeft_append space type.text).trans type.startsFirm.trimLeft
    unfold kindOfRest
    rw [opening, List.cons_append, text, afterTypeParameters_of_head type.unbracketed]
    simp only
    rw [if_neg type.unequal, struct, interface]
    rfl
  | braced kind parameters body tail =>
    have after := afterTypeParameters_braced kind parameters ('{' :: more)
    have whole : opening (.braced kind parameters body tail) ++ more =
        parametersText parameters ++ ' ' :: (kind.text ++ ' ' :: '{' :: more) := by
      simp [opening]
    unfold kindOfRest
    rw [whole, after]
    cases kind <;> rfl

theorem trim_opening_ne_nil (meaning : Meaning) (more : Text) : trim (meaning.opening ++ more) ≠ [] := by
  cases meaning with
  | synonym type => exact trim_ne_nil (c := '=') (by simp [opening]) (by decide)
  | named type =>
    obtain ⟨c, rest, same⟩ := List.exists_cons_of_ne_nil type.nonempty
    exact trim_ne_nil (c := c) (by simp [opening, same]) (type.startsFirm c (by simp [same]))
  | braced kind parameters body tail => exact trim_ne_nil (c := '{') (by simp [opening]) (by decide)

end Meaning

namespace Spec

variable (spec : Spec)

theorem front_startsFirm : StartsFirm spec.front :=
  (startsFirm_of_forall fun c member => isBlank_of_isWord (spec.word.2 c member)).append spec.word.1

theorem front_endsFirm : EndsFirm spec.front :=
  spec.meaning.opening_endsFirm.append spec.meaning.opening_ne_nil spec.name

theorem front_ne_nil : spec.front ≠ [] := by
  simp [front, spec.word.1]

/-- The first character of a declaration belongs to its name. -/
theorem isWord_of_head (more : Text) : ∀ c ∈ (spec.front ++ more).head?, isWord c = true := by
  intro c first
  rw [front, List.append_assoc, head?_append_of_ne_nil spec.word.1] at first
  exact spec.word.2 c (List.mem_of_mem_head? first)

/-- The name and the kind of a declaration are read from its first line. -/
theorem typeSpec?_front {more : Text} (alone : spec.meaning.rest = [] → more = []) :
    typeSpec? (spec.front ++ more) = some (spec.name, spec.meaning.kind) := by
  have trimmed : trim (spec.front ++ more) = spec.name ++ (spec.meaning.opening ++ trimRight more) := by
    have blank : AllBlank [] := by simp [AllBlank]
    have whole := trim_append_firm blank spec.front_startsFirm spec.front_endsFirm spec.front_ne_nil more
    simpa [front] using whole
  have named : word? (spec.name ++ (spec.meaning.opening ++ trimRight more)) =
      some (spec.name, spec.meaning.opening ++ trimRight more) :=
    word?_eq_some_iff.mpr ⟨spec.word, spec.meaning.opening_stops _, rfl⟩
  have kind := spec.meaning.kindOfRest_opening (trimRight more) fun single => by
    rw [alone single]
    rfl
  simp [typeSpec?, trimmed, named, spec.meaning.trim_opening_ne_nil, kind]

/-! ### Its lines -/

/-- The text before the brace of a declaration, after the name. -/
def lead (kind : Braced) (parameters : Option Parameters) : Text :=
  Meaning.parametersText parameters ++ ' ' :: (kind.text ++ [' '])

theorem mem_lead {kind : Braced} {parameters : Option Parameters} {c : Char}
    (member : c ∈ lead kind parameters) :
    (∃ given ∈ parameters, c ∈ given.text) ∨ c ∈ ['[', ']', ' '] ∨ isWord c = true := by
  simp only [lead, List.mem_append, List.mem_cons, List.not_mem_nil, or_false] at member
  rcases member with before | rfl | inside | rfl
  · cases parameters with
    | none => exact absurd before List.not_mem_nil
    | some given =>
      simp only [Meaning.parametersText, List.mem_cons, List.mem_append, List.not_mem_nil, or_false] at before
      rcases before with rfl | inside | rfl
      · exact .inr (.inl (by simp))
      · exact .inl ⟨given, rfl, inside⟩
      · exact .inr (.inl (by simp))
  · exact .inr (.inl (by simp))
  · exact .inr (.inr (kind.isWord_text c inside))
  · exact .inr (.inl (by simp))

theorem lead_plain (kind : Braced) (parameters : Option Parameters) :
    ∀ c ∈ lead kind parameters, ¬IsSign c := by
  intro c member
  rcases mem_lead member with ⟨given, -, inside⟩ | mark | word
  · exact given.plain c inside
  · simp only [List.mem_cons, List.not_mem_nil, or_false] at mark
    rcases mark with rfl | rfl | rfl <;> simp [IsSign]
  · exact not_isSign_of_isWord word

theorem lead_oneLine (kind : Braced) (parameters : Option Parameters) : '\n' ∉ lead kind parameters := by
  intro member
  rcases mem_lead member with ⟨given, -, inside⟩ | mark | word
  · exact given.oneLine inside
  · simp at mark
  · exact absurd word (by decide)

theorem name_oneLine : '\n' ∉ spec.name :=
  Clause.oneLine_of_unbroken fun c member => isBlank_of_isWord (spec.word.2 c member)

theorem front_oneLine : '\n' ∉ spec.front := by
  have name := spec.name_oneLine
  unfold front
  cases spec.meaning with
  | synonym type => simp [Meaning.opening, name, type.oneLine]
  | named type => simp [Meaning.opening, name, type.oneLine]
  | braced kind parameters body tail =>
    have before := lead_oneLine kind parameters
    simp only [lead, List.mem_append, List.mem_cons, not_or] at before
    simp [Meaning.opening, name, before]

theorem count_text : spec.text.count '\n' = spec.meaning.rest.count '\n' := by
  rw [text, List.count_append, List.count_eq_zero.mpr spec.front_oneLine, Nat.zero_add]

/-- A declaration stands on as many lines as its text has, the first one with all up to its brace. -/
theorem splitOn_lines {before : Text} (oneLine : '\n' ∉ before) : ∃ more others,
    (before ++ spec.text).splitOn '\n' = (before ++ (spec.front ++ more)) :: others ∧
      others.length = spec.text.count '\n' ∧ (spec.meaning.rest = [] → more = []) := by
  have whole : '\n' ∉ before ++ spec.front := by simp [oneLine, spec.front_oneLine]
  obtain ⟨first, rest, lines, split⟩ := splitOn_append whole spec.meaning.rest
  refine ⟨first, rest, by simpa [text] using split, ?_, fun alone => ?_⟩
  · have counted := length_splitOn spec.meaning.rest
    rw [lines, List.length_cons] at counted
    rw [spec.count_text]
    omega
  · rw [alone] at lines
    exact (List.cons.inj lines).1.symm

/-- The brace of a declaration closes after its body. -/
theorem linesToClose_text {kind : Braced} {parameters : Option Parameters} {body : Body} {tail : LineText}
    (same : spec.meaning = .braced kind parameters body tail) {before : Text} (oneLine : '\n' ∉ before)
    (plain : ∀ c ∈ before, ¬IsSign c) (after : List Text) :
    BraceScan.start.linesToClose ((before ++ spec.text).splitOn '\n' ++ after) = body.text.count '\n' := by
  have lineStart : '\n' ∉ before ++ (spec.name ++ lead kind parameters) := by
    simp [oneLine, spec.name_oneLine, lead_oneLine]
  have signless : ∀ c ∈ before ++ (spec.name ++ lead kind parameters), ¬IsSign c := by
    intro c member
    rcases List.mem_append.mp member with first | later
    · exact plain c first
    rcases List.mem_append.mp later with name | rest
    · exact not_isSign_of_isWord (spec.word.2 c name)
    · exact lead_plain kind parameters c rest
  have written : before ++ spec.text = (before ++ (spec.name ++ lead kind parameters)) ++
      '{' :: (body.text ++ '}' :: tail.text) := by
    simp [text, front, same, Meaning.opening, Meaning.rest, lead]
  rw [written]
  exact BraceScan.linesToClose_body lineStart signless body.nested tail.text after

/-- A declaration is read from its first line, and ends where its brace closes. -/
theorem typeDecl?_front {before more : Text} (oneLine : '\n' ∉ before) (plain : ∀ c ∈ before, ¬IsSign c)
    (alone : spec.meaning.rest = [] → more = []) (number : Nat) (after : List Text) :
    typeDecl? (spec.front ++ more) number ((before ++ spec.text).splitOn '\n' ++ after) =
      some (spec.decl number) := by
  rw [typeDecl?, spec.typeSpec?_front alone, decl, spec.count_text]
  cases same : spec.meaning with
  | synonym type => simp [Meaning.kind, Meaning.rest, isBraced]
  | named type => simp [Meaning.kind, Meaning.rest, isBraced]
  | braced kind parameters body tail =>
    have closes := spec.linesToClose_text same oneLine plain after
    have brace : '{' ∈ spec.front := by simp [front, same, Meaning.opening]
    have braced : isBraced (Meaning.braced kind parameters body tail).kind (spec.front ++ more) = true := by
      cases kind <;> simp [isBraced, Meaning.kind, brace]
    have lines : (Meaning.braced kind parameters body tail).rest.count '\n' = body.text.count '\n' := by
      have none := List.count_eq_zero.mpr tail.oneLine
      simp [Meaning.rest, none]
    simp [closes, braced, lines]

end Spec

end ApiNotes.Go
