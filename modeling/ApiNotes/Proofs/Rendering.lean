import ApiNotes.Proofs.Grammar
import ApiNotes.Proofs.References
import Mathlib.Data.Nat.Digits.Defs

/-!
# Writing annotation lines

A `Clause` is what one line of the format says, with texts that the format can hold, and
`Clause.line` writes it down with any white space that the format allows between its parts.
Reading such a line gives back all of it (`Clause.ofLine_line`). Only the references are not
always those of the clause: where an outcome has no model, a name that its description has before
a quote or a final blank is taken for one (`Clause.Strays`).
-/

namespace ApiNotes

open Text

/-! ## White space -/

/-- White space within a line. -/
structure Spacing where
  text : Text
  blank : AllBlank text
  oneLine : '\n' ∉ text

/-- White space that keeps two parts of a line apart. -/
structure Gap extends Spacing where
  nonempty : text ≠ []

theorem Spacing.unquoted (spacing : Spacing) : '"' ∉ spacing.text := by
  intro member
  exact absurd (spacing.blank '"' member) (by decide)

namespace Gap

variable (gap : Gap) {rest : Text}

theorem head?_ne_quote (rest : Text) : (gap.text ++ rest).head? ≠ some '"' := by
  rw [head?_append_of_ne_nil gap.nonempty]
  intro first
  exact gap.unquoted (List.mem_of_mem_head? first)

theorem attached (others : QuotesAttached rest) (plain : rest.head? ≠ some '"') :
    QuotesAttached (gap.text ++ rest) :=
  (quotesAttached_of_unquoted gap.unquoted).append others plain

end Gap

/-- The white space of an annotation line. -/
structure Layout where
  /-- Before the slashes. -/
  indent : Spacing
  /-- Between the slashes and the `@`. -/
  inset : Spacing
  afterKeyword : Gap
  afterFirst : Gap
  afterSecond : Gap
  afterThird : Gap
  beforeDescription : Gap

/-! ## Annotations -/

namespace Clause

/-- The digits of a status code. -/
structure Status where
  digits : Text
  nonempty : digits ≠ []
  decimal : ∀ c ∈ digits, isDigit c = true
  short : digits.length ≤ digitLimit

/-- The status code that they spell, the last digit counting units. -/
def Status.code (status : Status) : Nat :=
  Nat.ofDigits 10 (status.digits.filterMap digitValue?).reverse

/-- A text of one line without blanks at its ends. -/
structure Phrase where
  text : Text
  trimmed : trim text = text
  oneLine : '\n' ∉ text

/-- What stands in braces after a status code. -/
structure Object extends Phrase where
  nonempty : text ≠ []
  unclosed : '}' ∉ text
  unquoted : '"' ∉ text

/-- The model of an outcome. -/
structure Model extends Phrase where
  nonempty : text ≠ []
  plain : text.head? ≠ some '"'
  attached : QuotesAttached text

/-- A text without blanks. -/
structure Piece where
  text : Text
  nonempty : text ≠ []
  unbroken : ∀ c ∈ text, isBlank c = false

structure ParamPiece extends Piece where
  plain : text.head? ≠ some '"'

structure Method extends Piece where
  lowered : lower text = text
  unlisted : ',' ∉ text
  unclosed : ']' ∉ text

structure Scheme where
  text : Text
  word : IsWord text

/-- What stands between the quotes at the end of a line. -/
structure Description where
  text : Text
  oneLine : '\n' ∉ text

end Clause

open Clause in
/-- What an annotation line says. -/
inductive Clause where
  | response (outcome : Outcome) (status : Status) (object : Object) (model : Option Model)
      (description : Option Description)
  /-- A parameter; only one with a type may say whether it is required. -/
  | param (name location : ParamPiece) (type : Option (ParamPiece × Option Bool))
      (description : Option Description)
  | router (path : Piece) (methods : Option (List Method))
  | security (scheme : Scheme)
  | tag (name : TagName) (value : Phrase)

namespace Clause

def flagText : Bool → Text
  | true => "true".toList
  | false => "false".toList

/-- The detail of the field that says the same. -/
def detail : Clause → Detail
  | .response outcome status object _ _ => .response outcome status.code object.text
  | .param name location type _ => .param name.text location.text (type.map (·.1.text)) (type.bind (·.2))
  | .router path methods => .router path.text ((methods.getD []).map (·.text))
  | .security scheme => .security scheme.text
  | .tag name _ => .tag name

/-- The text of a quoted description. -/
def description : Clause → Option Text
  | .response _ _ _ _ description => description.map (·.text)
  | .param _ _ _ description => description.map (·.text)
  | _ => none

def modelText (layout : Layout) : Option Model → Text
  | none => []
  | some model => layout.afterSecond.text ++ model.text

/-- A truth value after the type of a parameter. -/
def requiredText (layout : Layout) : Option Bool → Text
  | none => []
  | some required => layout.afterThird.text ++ flagText required

/-- What follows the location of a parameter. -/
def typeText (layout : Layout) : Option (ParamPiece × Option Bool) → Text
  | none => []
  | some (type, required) => layout.afterSecond.text ++ (type.text ++ requiredText layout required)

def methodsText (layout : Layout) : Option (List Method) → Text
  | none => []
  | some methods =>
    layout.afterFirst.text ++ '[' :: ([','].intercalate (methods.map (·.text)) ++ [']'])

/-- The text after the keyword, up to the description. -/
def value (layout : Layout) : Clause → Text
  | .response _ status object model _ =>
    status.digits ++ (layout.afterFirst.text ++ '{' :: (object.text ++ '}' :: modelText layout model))
  | .param name location type _ =>
    name.text ++ (layout.afterFirst.text ++ (location.text ++ typeText layout type))
  | .router path methods => path.text ++ methodsText layout methods
  | .security scheme => scheme.text
  | .tag _ value => value.text

def quotedText (layout : Layout) : Option Text → Text
  | none => []
  | some description => layout.beforeDescription.text ++ '"' :: (description ++ ['"'])

/-- The text after the keyword. -/
def body (layout : Layout) (clause : Clause) : Text :=
  clause.value layout ++ quotedText layout clause.description

def line (layout : Layout) (clause : Clause) : Text :=
  layout.indent.text ++ '/' :: '/' :: (layout.inset.text ++
    '@' :: (clause.detail.keyword.text ++ (layout.afterKeyword.text ++ clause.body layout)))

/-- The references of the field that says the same: those in the model of an outcome, and those in all
that is said of a parameter. -/
def references (layout : Layout) (number : Int) (clause : Clause) : List Reference :=
  match clause with
  | .response _ _ _ (some model) _ =>
    referencesIn .response (clause.line layout) number model.text
  | .param .. => referencesIn .request (clause.line layout) number (clause.value layout)
  | _ => []

/-- An outcome without a model, whose description has a qualified name before blanks and a quote; the
quote that ends the description counts. -/
def Strays : Clause → Prop
  | .response _ _ _ none (some description) =>
    ∃ lead more, cutAtQuote? (description.text ++ ['"']) = some (lead, more) ∧
      qualifiedNames lead ≠ []
  | _ => False

/-! ## The parts of a line -/

theorem Phrase.startsFirm (phrase : Phrase) : StartsFirm phrase.text :=
  (trim_eq_self_iff.mp phrase.trimmed).1

theorem Phrase.endsFirm (phrase : Phrase) : EndsFirm phrase.text :=
  (trim_eq_self_iff.mp phrase.trimmed).2

theorem Status.unbroken (status : Status) : ∀ c ∈ status.digits, isBlank c = false :=
  fun c member => isBlank_of_isDigit (status.decimal c member)

theorem Scheme.unbroken (scheme : Scheme) : ∀ c ∈ scheme.text, isBlank c = false :=
  fun c member => isBlank_of_isWord (scheme.word.2 c member)

theorem isWord_flagText (flag : Bool) : IsWord (flagText flag) := by
  cases flag <;> exact ⟨by decide, List.all_eq_true.mp (by decide)⟩

theorem flagText_unbroken (flag : Bool) : ∀ c ∈ flagText flag, isBlank c = false :=
  fun c member => isBlank_of_isWord ((isWord_flagText flag).2 c member)

theorem Status.unquoted (status : Status) : '"' ∉ status.digits := by
  intro member
  exact absurd (status.decimal '"' member) (by decide)

theorem oneLine_of_unbroken {text : Text} (unbroken : ∀ c ∈ text, isBlank c = false) :
    '\n' ∉ text := by
  intro member
  exact absurd (unbroken '\n' member) (by decide)

theorem ParamPiece.attached (piece : ParamPiece) {rest : Text} (others : QuotesAttached rest)
    (plain : rest.head? ≠ some '"') : QuotesAttached (piece.text ++ rest) :=
  (quotesAttached_of_forall piece.unbroken).append others plain

theorem ParamPiece.head?_ne_quote (piece : ParamPiece) (rest : Text) :
    (piece.text ++ rest).head? ≠ some '"' := by
  rw [head?_append_of_ne_nil piece.nonempty]
  exact piece.plain

theorem mem_of_mem_methods {c : Char} (methods : List Method)
    (member : c ∈ [','].intercalate (methods.map (·.text))) :
    c = ',' ∨ ∃ method ∈ methods, c ∈ method.text := by
  match methods with
  | [] => cases member
  | [method] => exact .inr ⟨method, by simp, by simpa using member⟩
  | method :: next :: more =>
    rw [List.map_cons, List.map_cons, List.intercalate_cons_cons] at member
    rcases List.mem_append.mp member with inside | later
    · rcases List.mem_append.mp inside with inside | comma
      · exact .inr ⟨method, by simp, inside⟩
      · exact .inl (by simpa using comma)
    · obtain comma | ⟨other, place, inside⟩ := mem_of_mem_methods (next :: more) later
      · exact .inl comma
      · exact .inr ⟨other, List.mem_cons_of_mem _ place, inside⟩

theorem piecesBetween_methods {p : Char → Bool} (comma : p ',' = true) {methods : List Method}
    (whole : ∀ method ∈ methods, ∀ c ∈ method.text, p c = false) :
    piecesBetween p ([','].intercalate (methods.map (·.text))) = methods.map (·.text) := by
  match methods with
  | [] => simp [piecesBetween]
  | [method] =>
    rw [List.map_singleton, List.intercalate_singleton]
    exact piecesBetween_piece (whole method (by simp)) method.nonempty
  | method :: next :: more =>
    have later : piecesBetween p ([','].intercalate ((next :: more).map (·.text))) =
        (next :: more).map (·.text) :=
      piecesBetween_methods comma fun other member => whole other (List.mem_cons_of_mem _ member)
    rw [List.map_cons, List.map_cons, List.intercalate_cons_cons, List.append_assoc,
      List.singleton_append, piecesBetween_append (whole method (by simp)) method.nonempty comma]
    exact congrArg (method.text :: ·) later

/-! ## The value and the description -/

section

variable {layout : Layout}

theorem value_startsFirm (clause : Clause) : StartsFirm (clause.value layout) := by
  cases clause with
  | response _ status => exact (startsFirm_of_forall status.unbroken).append status.nonempty
  | param name => exact (startsFirm_of_forall name.unbroken).append name.nonempty
  | router path => exact (startsFirm_of_forall path.unbroken).append path.nonempty
  | security scheme => exact startsFirm_of_forall scheme.unbroken
  | tag _ value => exact value.startsFirm

theorem modelText_endsFirm (layout : Layout) (model : Option Model) :
    EndsFirm ('}' :: modelText layout model) := by
  cases model with
  | none => exact endsFirm_concat [] (by decide)
  | some model => exact model.endsFirm.append model.nonempty ('}' :: layout.afterSecond.text)

theorem typeText_endsFirm (layout : Layout) {location : Text}
    (type : Option (ParamPiece × Option Bool)) (firm : EndsFirm location) :
    EndsFirm (location ++ typeText layout type) := by
  match type with
  | none => simpa [typeText] using firm
  | some (type, none) =>
    rw [typeText, requiredText, List.append_nil, ← List.append_assoc]
    exact (endsFirm_of_forall type.unbroken).append type.nonempty _
  | some (type, some required) =>
    rw [typeText, requiredText]
    simp only [← List.append_assoc]
    exact (endsFirm_of_forall (flagText_unbroken required)).append (isWord_flagText required).1 _

theorem value_endsFirm (clause : Clause) : EndsFirm (clause.value layout) := by
  cases clause with
  | response _ status object model =>
    have ends := (modelText_endsFirm layout model).append (by simp)
      (status.digits ++ (layout.afterFirst.text ++ '{' :: object.text))
    simpa [value] using ends
  | param name location type =>
    rw [value, ← List.append_assoc]
    refine (typeText_endsFirm layout type (endsFirm_of_forall location.unbroken)).append ?_ _
    simp [location.nonempty]
  | router path methods =>
    cases methods with
    | none => simpa [value, methodsText] using endsFirm_of_forall path.unbroken
    | some methods =>
      rw [value, methodsText, ← List.append_assoc, ← List.cons_append, ← List.append_assoc]
      exact endsFirm_concat _ (by decide)
  | security scheme => exact endsFirm_of_forall scheme.unbroken
  | tag _ value => exact value.endsFirm

theorem value_oneLine (clause : Clause) : '\n' ∉ clause.value layout := by
  have first := layout.afterFirst.oneLine
  have second := layout.afterSecond.oneLine
  have third := layout.afterThird.oneLine
  cases clause with
  | response _ status object model =>
    have digits := oneLine_of_unbroken status.unbroken
    have inside := object.oneLine
    cases model with
    | none => simp [value, modelText, digits, inside, first]
    | some model => simp [value, modelText, digits, inside, first, second, model.oneLine]
  | param name location type =>
    have front := oneLine_of_unbroken name.unbroken
    have place := oneLine_of_unbroken location.unbroken
    match type with
    | none => simp [value, typeText, front, place, first]
    | some (type, required) =>
      have kind := oneLine_of_unbroken type.unbroken
      cases required with
      | none => simp [value, typeText, requiredText, front, place, kind, first, second]
      | some required =>
        have flag := oneLine_of_unbroken (flagText_unbroken required)
        simp [value, typeText, requiredText, front, place, kind, flag, first, second, third]
  | router path methods =>
    have front := oneLine_of_unbroken path.unbroken
    cases methods with
    | none => simp [value, methodsText, front]
    | some methods =>
      have listed : '\n' ∉ [','].intercalate (methods.map (·.text)) := by
        intro member
        obtain comma | ⟨method, -, inside⟩ := mem_of_mem_methods _ member
        · exact absurd comma (by decide)
        · exact oneLine_of_unbroken method.unbroken inside
      simp [value, methodsText, front, first, listed]
  | security scheme => exact oneLine_of_unbroken scheme.unbroken
  | tag _ value => exact value.oneLine

theorem unquoteEnd_append (description : Text) : unquoteEnd (description ++ ['"']) = description := by
  have firm : EndsFirm (description ++ ['"']) := endsFirm_concat _ (by decide)
  simp [unquoteEnd, firm.trimRight]

/-- A value and the description after it come apart again. -/
theorem splitDescription_append {value : Text} (attached : QuotesAttached value)
    (starts : StartsFirm value) (ends : EndsFirm value) (plain : value.head? ≠ some '"')
    (layout : Layout) (description : Option Text) :
    splitDescription (value ++ quotedText layout description) = (value, description) := by
  have trimmed : trim value = value := trim_eq_self_iff.mpr ⟨starts, ends⟩
  cases description with
  | none =>
    rw [quotedText, List.append_nil, splitDescription, cutAtQuote?_eq_none attached]
    simp [plain, trimmed]
  | some description =>
    have cut := cutAtQuote?_append attached ends layout.beforeDescription.blank
      layout.beforeDescription.nonempty (description ++ ['"'])
    rw [quotedText, splitDescription, cut]
    simp [trimmed, unquoteEnd_append]

theorem modelText_attached (model : Option Model) : QuotesAttached (modelText layout model) := by
  cases model with
  | none => exact List.isChain_nil
  | some model => exact layout.afterSecond.attached model.attached model.plain

theorem splitDescription_response {clause : Clause} {outcome : Outcome} {status : Status}
    {object : Object} {model : Option Model} {description : Option Description}
    (is : clause = .response outcome status object model description) :
    splitDescription (clause.body layout) = (clause.value layout, clause.description) := by
  have front : '"' ∉ status.digits ++ (layout.afterFirst.text ++ '{' :: (object.text ++ ['}'])) := by
    simp [status.unquoted, layout.afterFirst.unquoted, object.unquoted]
  have joint : (modelText layout model).head? ≠ some '"' := by
    cases model with
    | none => simp [modelText]
    | some model => exact layout.afterSecond.head?_ne_quote model.text
  have attached : QuotesAttached (clause.value layout) := by
    simpa [is, value] using
      (quotesAttached_of_unquoted front).append (modelText_attached model) joint
  have plain : (clause.value layout).head? ≠ some '"' := by
    intro first
    exact front (List.mem_of_mem_head? (by simpa [is, value, status.nonempty] using first))
  exact splitDescription_append attached (value_startsFirm clause) (value_endsFirm clause)
    plain layout _

theorem typeText_attached (layout : Layout) (type : Option (ParamPiece × Option Bool)) :
    QuotesAttached (typeText layout type) := by
  match type with
  | none => exact List.isChain_nil
  | some (type, required) =>
    have rest : QuotesAttached (requiredText layout required) := by
      cases required with
      | none => exact List.isChain_nil
      | some required =>
        refine layout.afterThird.attached (quotesAttached_of_forall (flagText_unbroken required)) ?_
        cases required <;> decide
    have joint : (requiredText layout required).head? ≠ some '"' := by
      cases required with
      | none => simp [requiredText]
      | some required => exact layout.afterThird.head?_ne_quote _
    exact layout.afterSecond.attached (type.attached rest joint) (type.head?_ne_quote _)

theorem splitDescription_param {clause : Clause} {name location : ParamPiece}
    {type : Option (ParamPiece × Option Bool)} {description : Option Description}
    (is : clause = .param name location type description) :
    splitDescription (clause.body layout) = (clause.value layout, clause.description) := by
  have joint : (typeText layout type).head? ≠ some '"' := by
    cases type with
    | none => simp [typeText]
    | some type => exact layout.afterSecond.head?_ne_quote _
  have attached : QuotesAttached (clause.value layout) := by
    rw [is]
    exact name.attached
      (layout.afterFirst.attached (location.attached (typeText_attached layout type) joint)
        (location.head?_ne_quote _))
      (layout.afterFirst.head?_ne_quote _)
  have plain : (clause.value layout).head? ≠ some '"' := by
    rw [is]
    exact name.head?_ne_quote _
  exact splitDescription_append attached (value_startsFirm clause) (value_endsFirm clause)
    plain layout _

/-! ## The keyword and the rest -/

theorem oneLine_of_description {clause : Clause} {text : Text}
    (given : clause.description = some text) : '\n' ∉ text := by
  cases clause with
  | response _ _ _ _ description =>
    obtain ⟨description, -, rfl⟩ := Option.map_eq_some_iff.mp given
    exact description.oneLine
  | param _ _ _ description =>
    obtain ⟨description, -, rfl⟩ := Option.map_eq_some_iff.mp given
    exact description.oneLine
  | router | security | tag => cases given

theorem value_ne_nil {clause : Clause} {text : Text}
    (given : clause.description = some text) : clause.value layout ≠ [] := by
  cases clause with
  | response _ status => simp [value, status.nonempty]
  | param name => simp [value, name.nonempty]
  | router | security | tag => cases given

theorem body_oneLine (clause : Clause) : '\n' ∉ clause.body layout := by
  have front : '\n' ∉ clause.value layout := value_oneLine clause
  cases given : clause.description with
  | none => simpa [body, given, quotedText] using front
  | some text =>
    simp [body, given, quotedText, front, layout.beforeDescription.oneLine, oneLine_of_description given]

theorem body_startsFirm (clause : Clause) : StartsFirm (clause.body layout) := by
  have firm : StartsFirm (clause.value layout) := value_startsFirm clause
  cases given : clause.description with
  | none => simpa [body, given, quotedText] using firm
  | some text => exact firm.append (value_ne_nil given)

theorem body_endsFirm (clause : Clause) : EndsFirm (clause.body layout) := by
  cases given : clause.description with
  | none =>
    have ends : EndsFirm (clause.value layout) := value_endsFirm clause
    simpa [body, given, quotedText] using ends
  | some text =>
    have ends : EndsFirm (clause.value layout ++ layout.beforeDescription.text ++ '"' :: text ++ ['"']) :=
      endsFirm_concat _ (by decide)
    simpa [body, given, quotedText] using ends

/-- The keyword of a written line is read, and what was written after it. -/
theorem keywordAndRest?_line (clause : Clause) :
    keywordAndRest? (clause.line layout) =
      some (clause.detail.keyword.text, clause.body layout) := by
  refine keywordAndRest?_eq_some_iff.mpr ⟨Keyword.isWord_text _, body_startsFirm clause,
    body_endsFirm clause, layout.indent.text, layout.inset.text, layout.afterKeyword.text, [],
    layout.indent.blank, layout.inset.blank, layout.afterKeyword.blank, List.forall_mem_nil _, ?_, ?_, ?_⟩
  · exact stops_at_gap layout.afterKeyword.blank layout.afterKeyword.nonempty
      (fun _ => isWord_of_isBlank) (clause.body layout)
  · rw [List.append_nil]
    exact fun broken => body_oneLine clause (List.dropLast_subset _ broken)
  · rw [List.append_nil, line]

/-! ## What is read by keyword -/

theorem statusOf_digits (status : Status) : statusOf status.digits = .ok status.code := by
  have places : numberOf status.digits = status.code := by
    rw [Status.code, Nat.ofDigits_eq_foldr, List.foldr_reverse, numberOf]
    simp only [Nat.cast_id, Nat.add_comm]
  rw [statusOf, if_neg (Nat.not_lt.mpr status.short), places]

/-- The text in which the models of an outcome are looked for. -/
def region (layout : Layout) (model : Option Model) (description : Option Text) : Text :=
  (splitDescription (trim (modelText layout model ++ quotedText layout description))).1

theorem region_of_model (model : Model) (description : Option Text) :
    region layout (some model) description = model.text := by
  have ends : EndsFirm (model.text ++ quotedText layout description) := by
    cases description with
    | none => simpa [quotedText] using model.endsFirm
    | some text =>
      have closed : EndsFirm (model.text ++ layout.beforeDescription.text ++ '"' :: text ++ ['"']) :=
        endsFirm_concat _ (by decide)
      simpa [quotedText] using closed
  have starts : StartsFirm (model.text ++ quotedText layout description) :=
    model.startsFirm.append model.nonempty
  rw [region, modelText, List.append_assoc, trim, trimLeft_append layout.afterSecond.blank,
    starts.trimLeft, ends.trimRight,
    splitDescription_append model.attached model.startsFirm model.endsFirm model.plain]

theorem region_of_nothing : region layout none none = [] := rfl

/-- Without a model, the text of the description up to the first blanks before a quote is looked
through, with the quote before it. -/
theorem region_of_description (description : Text) :
    region layout none (some description) =
      (match cutAtQuote? (description ++ ['"']) with
      | some (lead, _) => '"' :: lead
      | none => []) := by
  have starts : StartsFirm ('"' :: (description ++ ['"'])) := by
    rintro c ⟨rfl⟩
    decide
  have ends : EndsFirm ('"' :: (description ++ ['"'])) := endsFirm_concat ('"' :: description) (by decide)
  -- The opening quote has no blank before it any more, so the text is not cut there.
  have here : afterOpeningQuote? ('"' :: (description ++ ['"'])) = none := by
    simp [afterOpeningQuote?, afterBlanks?_of_startsFirm starts]
  rw [region, modelText, List.nil_append, quotedText, trim, trimLeft_append layout.beforeDescription.blank,
    starts.trimLeft, ends.trimRight, splitDescription, cutAtQuote?_of_none here]
  cases cut : cutAtQuote? (description ++ ['"']) with
  | none => simp
  | some found =>
    obtain ⟨lead, more⟩ := found
    have firm := (cutAtQuote?_eq_some_iff.mp cut).2.1
    have whole : trim ('"' :: lead) = '"' :: lead :=
      trim_eq_self_iff.mpr ⟨fun c first => starts c first, firm.cons (by decide)⟩
    simp [whole]

theorem ofResponse_body {clause : Clause} {outcome : Outcome} {status : Status}
    {object : Object} {model : Option Model} {description : Option Description}
    (is : clause = .response outcome status object model description) (number : Int) :
    Field.ofResponse outcome (clause.line layout) number (clause.body layout) =
      .ok (some
        { line := number, detail := clause.detail, value := clause.value layout,
          description := clause.description,
          references := referencesIn .response (clause.line layout) number
            (region layout model clause.description) }) := by
  have parts : responseParts? (clause.body layout) = some (status.digits, object.text,
      modelText layout model ++ quotedText layout clause.description) :=
    responseParts?_eq_some_iff.mpr ⟨status.nonempty, status.decimal, object.nonempty, object.unclosed,
      layout.afterFirst.text, layout.afterFirst.nonempty, layout.afterFirst.blank,
      by simp [is, body, value]⟩
  have said : clause.detail = .response outcome status.code object.text := by rw [is, detail]
  rw [Field.ofResponse, parts, splitDescription_response is, said]
  simp only [statusOf_digits, bind, Except.bind, pure, Except.pure, object.trimmed]
  rfl

/-- The words of the type of a parameter and what follows it. -/
def typeWords : Option (ParamPiece × Option Bool) → List Text
  | none => []
  | some (type, required) => type.text :: (required.map flagText).toList

theorem words_piece_typeText (piece : Piece) (type : Option (ParamPiece × Option Bool)) :
    words (piece.text ++ typeText layout type) = piece.text :: typeWords type := by
  match type with
  | none => simpa [typeText, typeWords] using words_piece piece.unbroken piece.nonempty
  | some (type, none) =>
    rw [typeText, requiredText, List.append_nil, words_append piece.unbroken piece.nonempty
      layout.afterSecond.blank layout.afterSecond.nonempty, words_piece type.unbroken type.nonempty]
    rfl
  | some (type, some required) =>
    rw [typeText, requiredText, words_append piece.unbroken piece.nonempty layout.afterSecond.blank
      layout.afterSecond.nonempty, words_append type.unbroken type.nonempty layout.afterThird.blank
      layout.afterThird.nonempty, words_piece (flagText_unbroken required) (isWord_flagText required).1]
    rfl

theorem flag?_flagText (flag : Bool) : flag? (flagText flag) = some flag := by
  cases flag <;> decide

theorem ofParam_body {clause : Clause} {name location : ParamPiece}
    {type : Option (ParamPiece × Option Bool)} {description : Option Description}
    (is : clause = .param name location type description) (number : Int) :
    Field.ofParam (clause.line layout) number (clause.body layout) =
      some
        { line := number, detail := clause.detail, value := clause.value layout,
          description := clause.description, references := clause.references layout number } := by
  have listed : words (clause.value layout) = name.text :: location.text :: typeWords type := by
    have rest := words_append name.unbroken name.nonempty layout.afterFirst.blank
      layout.afterFirst.nonempty (location.text ++ typeText layout type)
    rw [words_piece_typeText location.toPiece type] at rest
    rwa [is, value]
  have said : clause.detail = .param name.text location.text (typeWords type).head?
      ((typeWords type)[1]?.bind flag?) := by
    rw [is]
    match type with
    | none => rfl
    | some (type, none) => rfl
    | some (type, some required) => simp [typeWords, detail, flag?_flagText]
  have placed : clause.references layout number =
      referencesIn .request (clause.line layout) number (clause.value layout) := by
    rw [is, references]
  rw [Field.ofParam, splitDescription_param is, said, placed]
  simp only [listed]

theorem routeParts?_value (layout : Layout) (path : Piece) (methods : Option (List Method)) :
    routeParts? (value layout (.router path methods)) =
      some (path.text, (methods.getD []).map (·.text)) := by
  have unbroken : ∀ c ∈ path.text, (!isBlank c) = true := fun c member => by simp [path.unbroken c member]
  cases methods with
  | none =>
    have whole : path.text.takeWhile (fun c => !isBlank c) = path.text :=
      List.takeWhile_eq_self_iff.mpr unbroken
    have rest : path.text.dropWhile (fun c => !isBlank c) = [] :=
      List.dropWhile_eq_nil_iff.mpr unbroken
    simp [value, methodsText, routeParts?, whole, rest, path.nonempty, afterBlanks?, piecesBetween]
  | some methods =>
    -- The methods are the pieces between the commas: none has a blank, a comma or a bracket.
    have stops := stops_at_gap layout.afterFirst.blank layout.afterFirst.nonempty
      (p := fun c => !isBlank c) (fun c blank => by simp [blank])
      ('[' :: ([','].intercalate (methods.map (·.text)) ++ [']']))
    have bracket : trimLeft ('[' :: ([','].intercalate (methods.map (·.text)) ++ [']'])) =
        '[' :: ([','].intercalate (methods.map (·.text)) ++ [']']) := rfl
    have unclosed : ']' ∉ [','].intercalate (methods.map (·.text)) := by
      intro member
      obtain comma | ⟨method, -, place⟩ := mem_of_mem_methods _ member
      · exact absurd comma (by decide)
      · exact method.unclosed place
    have pieces : piecesBetween (fun c => isBlank c || c = ',')
        ([','].intercalate (methods.map (·.text))) = methods.map (·.text) :=
      piecesBetween_methods (by decide) fun method _ c member => by
        have apart : c ≠ ',' := fun comma => method.unlisted (comma ▸ member)
        simp [method.unbroken c member, apart]
    have lowered : methods.map (fun method => lower method.text) = methods.map (·.text) :=
      List.map_congr_left fun method _ => method.lowered
    unfold routeParts?
    rw [value, methodsText, takeWhile_append_stop unbroken stops, dropWhile_append_stop unbroken stops,
      afterBlanks?_append layout.afterFirst.blank layout.afterFirst.nonempty, bracket]
    have taken := takeWhile_ne_append unclosed []
    simp only [ne_eq, decide_not] at taken
    simp [path.nonempty, taken, pieces, Function.comp_def, lowered]

theorem word?_scheme (scheme : Scheme) : word? scheme.text = some (scheme.text, []) :=
  word?_eq_some_iff.mpr ⟨scheme.word, by simp, by simp⟩

/-! ## Reading what was written -/

/-- The references that are read from a written clause. -/
def readReferences (layout : Layout) (number : Int) (clause : Clause) : List Reference :=
  match clause with
  | .response _ _ _ model _ => referencesIn .response (clause.line layout) number
      (region layout model clause.description)
  | other => other.references layout number

/-- The field of a written line. -/
theorem ofLine_line (clause : Clause) (layout : Layout) (number : Int) :
    Field.ofLine (clause.line layout) number =
      .ok (some
        { line := number, detail := clause.detail, value := clause.value layout,
          description := clause.description, references := clause.readReferences layout number }) := by
  rw [Field.ofLine, keywordAndRest?_line]
  simp only [Keyword.ofText?_text]
  cases clause with
  | response outcome status object model description =>
    exact ofResponse_body rfl number
  | param name location type description =>
    exact congrArg Except.ok (ofParam_body rfl number)
  | router path methods =>
    have parts := routeParts?_value layout path methods
    simp [detail, Detail.keyword, Field.ofRouter, body, description, quotedText, parts,
      readReferences, references]
  | security scheme =>
    simp [detail, Detail.keyword, Field.ofSecurity, body, description, quotedText, value, word?_scheme,
      readReferences, references]
  | tag name value =>
    simp [detail, Detail.keyword, Field.ofTag, body, description, quotedText, Clause.value,
      readReferences, references]

/-- The quoted description ends the line. -/
theorem quoted_isSuffix_line {clause : Clause} {text : Text}
    (given : clause.description = some text) :
    '"' :: (text ++ ['"']) <:+ clause.line layout := by
  refine ⟨layout.indent.text ++ '/' :: '/' :: (layout.inset.text ++ '@' ::
    (clause.detail.keyword.text ++ (layout.afterKeyword.text ++
      (clause.value layout ++ layout.beforeDescription.text)))), ?_⟩
  simp [line, body, given, quotedText]

/-- What is read from an outcome without a model is what its description has before a quote. -/
theorem readReferences_of_description {outcome : Outcome} {status : Status} {object : Object}
    {description : Description} (number : Int) :
    readReferences layout number (.response outcome status object none (some description)) = [] ↔
      ¬Strays (.response outcome status object none (some description)) := by
  have tail : '"' :: (description.text ++ ['"']) <:+
      line layout (.response outcome status object none (some description)) := quoted_isSuffix_line rfl
  rw [readReferences, Clause.description, Option.map_some, region_of_description, Strays]
  cases cut : cutAtQuote? (description.text ++ ['"']) with
  | none => simp [referencesIn, qualifiedNames, tokens, qualifiedNamesOf]
  | some found =>
    obtain ⟨lead, more⟩ := found
    obtain ⟨-, -, gap, -, -, split⟩ := cutAtQuote?_eq_some_iff.mp cut
    have inside : '"' :: lead <:+: line layout (.response outcome status object none (some description)) := by
      rw [split] at tail
      exact (List.prefix_append ('"' :: lead) (gap ++ '"' :: more)).isInfix.trans tail.isInfix
    rw [referencesIn_eq_nil_iff inside, qualifiedNames_cons (by decide)]
    simp

/-- Reading undoes writing. The field of a written line has the status, object, parts of the
parameter, path, methods, scheme or tag that were written, and their value and description; its
references are those of the clause just if it is not an outcome without a model whose description
has a qualified name before blanks and a quote. -/
theorem ofLine_undoes_line (clause : Clause) (layout : Layout) (number : Int) :
    ∃ references, Field.ofLine (clause.line layout) number =
        .ok (some
          { line := number, detail := clause.detail, value := clause.value layout,
            description := clause.description, references := references }) ∧
      (references = clause.references layout number ↔ ¬clause.Strays) := by
  refine ⟨clause.readReferences layout number, ofLine_line clause layout number, ?_⟩
  match clause with
  | .response _ _ _ (some model) description =>
    simp [readReferences, references, Strays, region_of_model]
  | .response _ _ _ none none =>
    simp [readReferences, references, Strays, Clause.description, region_of_nothing, referencesIn,
      qualifiedNames, tokens, qualifiedNamesOf]
  | .response _ _ _ none (some _) => exact readReferences_of_description number
  | .param .. | .router .. | .security _ | .tag .. => simp [readReferences, Strays]

end

def space : Gap := ⟨⟨[' '], by decide, by decide⟩, by decide⟩

/-- One space wherever white space may be, and none before the slashes. -/
def singleSpaced : Layout := ⟨⟨[], by decide, by decide⟩, space.toSpacing, space, space, space, space, space⟩

/-- An outcome that says in its description where to look. -/
def seeUser : Clause :=
  .response .success ⟨ofNat 200, by decide, List.all_eq_true.mp (by decide), by decide⟩
    ⟨⟨"object".toList, by decide, by decide⟩, by decide, by decide, by decide⟩ none
    (some ⟨"see models.User ".toList, by decide⟩)

/-- The description has a qualified name, and the blank at its end is followed by the quote that closes
it: so the name is read as a reference, though the outcome has no model. -/
theorem seeUser_strays :
    seeUser.line singleSpaced = "// @Success 200 {object} \"see models.User \"".toList ∧
      seeUser.references singleSpaced 1 = [] ∧
      Field.ofLine (seeUser.line singleSpaced) 1 =
        .ok (some
          { line := 1, detail := .response .success 200 "object".toList,
            value := "200 {object}".toList, description := some "see models.User ".toList,
            references := [⟨1, 30, 41, "models.User".toList, 0, .response⟩] }) := by
  refine ⟨by decide, rfl, by decide +kernel⟩

end Clause

end ApiNotes
