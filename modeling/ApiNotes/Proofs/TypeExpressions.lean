import ApiNotes.Proofs.Positions
import ApiNotes.Proofs.Rendering
import ApiNotes.Proofs.TypeTrees

/-!
# Nested types in annotation lines

The model of an outcome and the type of a parameter may be a tree of type names. Each of its names is read
as a reference of its own, at its own place and level, and found from every column that it covers
(`TypeTree.readBack`).
-/

namespace ApiNotes

open Text

/-! ## The parts of the lines -/

namespace TypeTree

mutual

/-- The characters of a tree: those of words, dots, brackets and commas. -/
theorem mem_text {c : Char} (tree : TypeTree) (member : c ∈ tree.text) :
    isWord c = true ∨ c ∈ ['.', '[', ',', ']'] := by
  obtain ⟨name, arguments⟩ := tree
  have own : c ∈ name.text → isWord c = true ∨ c ∈ ['.', '[', ',', ']'] := by
    intro inside
    rcases List.mem_append.mp inside with inside | inside
    · exact .inl (name.packageWord.2 c inside)
    · rcases List.mem_cons.mp inside with rfl | inside
      · exact .inr (by decide)
      · exact .inl (name.typeWord.2 c inside)
  have listed := mem_listText (c := c) arguments
  cases arguments with
  | nil => exact own member
  | cons first more =>
    rw [text_node_cons, List.mem_append, List.mem_cons] at member
    rcases member with inside | rfl | inside
    · exact own inside
    · exact .inr (by decide)
    · exact listed inside

theorem mem_listText {c : Char} (trees : List TypeTree) (member : c ∈ listText trees) :
    isWord c = true ∨ c ∈ ['.', '[', ',', ']'] := by
  match trees with
  | [] => cases member
  | argument :: more =>
    rw [listText, List.mem_append, List.mem_cons] at member
    rcases member with inside | rfl | inside
    · exact mem_text argument inside
    · exact .inr (by cases more <;> simp [endMark])
    · exact mem_listText more inside

end

/-- What holds of the characters of words and of the four marks holds of all characters of a tree. -/
theorem forall_text {p : Char → Bool} (words : ∀ c, isWord c = true → p c = true)
    (marks : ['.', '[', ',', ']'].all p = true) (tree : TypeTree) : ∀ c ∈ tree.text, p c = true := by
  intro c member
  rcases mem_text tree member with word | mark
  · exact words c word
  · exact List.all_eq_true.mp marks c mark

theorem text_unbroken (tree : TypeTree) : ∀ c ∈ tree.text, isBlank c = false := by
  intro c member
  have firm := forall_text (p := fun c => !isBlank c) (fun c word => by simp [isBlank_of_isWord word])
    (by decide) tree c member
  simpa using firm

theorem text_unquoted (tree : TypeTree) : '"' ∉ tree.text := by
  intro member
  have other := forall_text (p := (· != '"'))
    (fun c word => by
      rw [bne_iff_ne]
      rintro rfl
      exact absurd word (by decide))
    (by decide) tree '"' member
  simp at other

theorem text_nonempty (tree : TypeTree) : tree.text ≠ [] := by
  obtain ⟨name, arguments⟩ := tree
  cases arguments with
  | nil => exact text_ne_nil name
  | cons first more => simp [text_node_cons]

/-- A tree as the model of an outcome. -/
def model (tree : TypeTree) : Clause.Model where
  text := tree.text
  trimmed := trim_eq_self_iff.mpr
    ⟨startsFirm_of_forall tree.text_unbroken, endsFirm_of_forall tree.text_unbroken⟩
  oneLine := Clause.oneLine_of_unbroken tree.text_unbroken
  nonempty := tree.text_nonempty
  plain := fun first => tree.text_unquoted (List.mem_of_mem_head? first)
  attached := quotesAttached_of_forall tree.text_unbroken

/-- A tree as the type of a parameter. -/
def piece (tree : TypeTree) : Clause.ParamPiece where
  text := tree.text
  nonempty := tree.text_nonempty
  unbroken := tree.text_unbroken
  plain := fun first => tree.text_unquoted (List.mem_of_mem_head? first)

end TypeTree

namespace Clause

structure Word where
  text : Text
  word : IsWord text

theorem Word.unbroken (word : Word) : ∀ c ∈ word.text, isBlank c = false :=
  fun c member => isBlank_of_isWord (word.word.2 c member)

theorem Word.not_mem (word : Word) {c : Char} (other : isWord c = false) : c ∉ word.text := by
  intro member
  rw [word.word.2 c member] at other
  cases other

def Word.object (word : Word) : Object where
  text := word.text
  trimmed := trim_eq_self_iff.mpr
    ⟨startsFirm_of_forall word.unbroken, endsFirm_of_forall word.unbroken⟩
  oneLine := oneLine_of_unbroken word.unbroken
  nonempty := word.word.1
  unclosed := word.not_mem (by decide)
  unquoted := word.not_mem (by decide)

def Word.piece (word : Word) : ParamPiece where
  text := word.text
  nonempty := word.word.1
  unbroken := word.unbroken
  plain := fun first => word.not_mem (by decide) (List.mem_of_mem_head? first)

end Clause

/-! ## What stands before a tree -/

/-- The characters that no dot and no bracket of a name may be taken for. -/
def isPlain (c : Char) : Bool := c != '.' && c != '[' && c != ']'

/-- A text of such characters. -/
def AllPlain (text : Text) : Prop := ∀ c ∈ text, isPlain c = true

section

variable {text other : Text}

theorem AllPlain.append (plain : AllPlain text) (others : AllPlain other) : AllPlain (text ++ other) :=
  List.forall_mem_append.mpr ⟨plain, others⟩

theorem AllPlain.cons {c : Char} (first : isPlain c = true) (plain : AllPlain text) : AllPlain (c :: text) :=
  List.forall_mem_cons.mpr ⟨first, plain⟩

/-- Characters of a class are plain if the dot and the brackets are not of the class. -/
theorem allPlain_of_class {p : Char → Bool} (all : ∀ c ∈ text, p c = true)
    (none : ['.', '[', ']'].any p = false) : AllPlain text := by
  intro c member
  have dot : c ≠ '.' := by
    rintro rfl
    simp [all _ member] at none
  have opening : c ≠ '[' := by
    rintro rfl
    simp [all _ member] at none
  have closing : c ≠ ']' := by
    rintro rfl
    simp [all _ member] at none
  simp [isPlain, dot, opening, closing]

theorem Spacing.allPlain (spacing : Spacing) : AllPlain spacing.text :=
  allPlain_of_class spacing.blank (by decide)

theorem Keyword.allPlain (keyword : Keyword) : AllPlain keyword.text :=
  allPlain_of_class keyword.isWord_text.2 (by decide)

theorem AllPlain.undotted (plain : AllPlain text) : '.' ∉ text := by
  intro member
  exact absurd (plain '.' member) (by decide)

end

namespace Clause

section

variable {layout : Layout}

theorem Word.allPlain (word : Word) : AllPlain word.text := allPlain_of_class word.word.2 (by decide)

theorem Status.allPlain (status : Status) : AllPlain status.digits :=
  allPlain_of_class status.decimal (by decide)

/-- What stands before the text after the keyword. -/
theorem line_allPlain {clause : Clause} (body : AllPlain (clause.body layout)) :
    AllPlain (clause.line layout) :=
  layout.indent.allPlain.append (.cons rfl (.cons rfl (layout.inset.allPlain.append
    (.cons rfl ((Keyword.allPlain _).append (layout.afterKeyword.toSpacing.allPlain.append body))))))

/-- The text before the model of an outcome. -/
def responseLead (layout : Layout) (outcome : Outcome) (status : Status) (kind : Word) : Text :=
  (Clause.response outcome status kind.object none none).line layout ++ layout.afterSecond.text

/-- The text before the type of a parameter. -/
def paramLead (layout : Layout) (name location : Word) : Text :=
  (Clause.param name.piece location.piece none none).line layout ++ layout.afterSecond.text

theorem responseLead_allPlain (layout : Layout) (outcome : Outcome) (status : Status) (kind : Word) :
    AllPlain (responseLead layout outcome status kind) := by
  refine (line_allPlain ?_).append layout.afterSecond.toSpacing.allPlain
  have inside := status.allPlain.append (layout.afterFirst.toSpacing.allPlain.append
    (.cons (c := '{') rfl (kind.allPlain.append (.cons (c := '}') rfl (List.forall_mem_nil _)))))
  simpa [body, value, modelText, description, quotedText, Word.object] using inside

theorem paramLead_allPlain (layout : Layout) (name location : Word) :
    AllPlain (paramLead layout name location) := by
  refine (line_allPlain ?_).append layout.afterSecond.toSpacing.allPlain
  have inside := name.allPlain.append (layout.afterFirst.toSpacing.allPlain.append location.allPlain)
  simpa [body, value, typeText, description, quotedText, Word.piece] using inside

/-- A plain text that ends in blanks opens a tree. -/
theorem opens_of_allPlain {lead : Text} (gap : Gap) (plain : AllPlain (lead ++ gap.text)) :
    TypeTree.Opens (lead ++ gap.text) 0 where
  ends := by
    obtain empty | ⟨front, mark, split⟩ := List.eq_nil_or_concat gap.text
    · exact absurd empty gap.nonempty
    · have blank := gap.blank mark (by simp [split])
      refine ⟨lead ++ front, mark, by simp [split], isWord_of_isBlank blank, ?_⟩
      rintro rfl
      exact absurd blank (by decide)
  level := by
    have absent : ∀ {c : Char}, isPlain c = false → (lead ++ gap.text).count c = 0 := by
      intro c other
      refine List.count_eq_zero.mpr fun member => ?_
      rw [plain c member] at other
      cases other
    rw [absent (by decide), absent (by decide)]

/-! ## The names in the value of a parameter -/

theorem qualifiedNames_gap (gap : Gap) (rest : Text) :
    qualifiedNames (gap.text ++ rest) = qualifiedNames rest := by
  have blank := gap.blank
  generalize gap.text = text at blank
  induction text with
  | nil => rfl
  | cons c text ih =>
    obtain ⟨first, later⟩ := List.forall_mem_cons.mp blank
    rw [List.cons_append, qualifiedNames_cons (isWord_of_isBlank first), ih later]

theorem qualifiedNames_word_gap {word : Text} (valid : IsWord word) (gap : Gap) (rest : Text) :
    qualifiedNames (word ++ (gap.text ++ rest)) = qualifiedNames rest := by
  have undotted : (gap.text ++ rest).head? ≠ some '.' := fun first => by
    have other := stops_at_gap gap.blank gap.nonempty (p := (· == '.'))
      (fun c blank => Bool.eq_false_iff.mpr fun dot => by
        rw [beq_iff_eq.mp dot] at blank
        exact absurd blank (by decide)) rest '.' first
    cases other
  rw [qualifiedNames_word valid (stops_at_gap gap.blank gap.nonempty (fun _ => isWord_of_isBlank) rest)
    undotted, qualifiedNames_gap]

theorem qualifiedNames_param (layout : Layout) (tree : TypeTree) (name location : Word) (required : Option Bool)
    (description : Option Description) :
    qualifiedNames (value layout
      (.param name.piece location.piece (some (tree.piece, required)) description)) =
        tree.names.map (·.text) := by
  have after : qualifiedNames (tree.text ++ requiredText layout required) = tree.names.map (·.text) := by
    cases required with
    | none =>
      have alone := tree.qualifiedNames_text [] (by simp)
      simpa [requiredText, qualifiedNames, tokens, qualifiedNamesOf] using alone
    | some flag =>
      have whole := isWord_flagText flag
      have flagged : qualifiedNames (flagText flag) = [] := by
        rw [← List.append_nil (flagText flag), qualifiedNames_word whole (by simp) (by simp)]
        rfl
      rw [requiredText, tree.qualifiedNames_text _ (stops_at_gap layout.afterThird.blank
        layout.afterThird.nonempty (fun _ => isWord_of_isBlank) _), qualifiedNames_gap, flagged,
        List.append_nil]
  have named := qualifiedNames_word_gap name.word layout.afterFirst
    (location.text ++ (layout.afterSecond.text ++ (tree.text ++ requiredText layout required)))
  rw [qualifiedNames_word_gap location.word layout.afterSecond, after] at named
  exact named

/-! ## The lines -/

theorem line_response (tree : TypeTree) (outcome : Outcome) (status : Status) (kind : Word)
    (description : Option Description) :
    (Clause.response outcome status kind.object (some tree.model) description).line layout =
      responseLead layout outcome status kind ++
        (tree.text ++ quotedText layout (description.map (·.text))) := by
  simp [line, body, value, modelText, responseLead, Clause.description, quotedText, detail,
    Detail.keyword, TypeTree.model]

theorem line_param (tree : TypeTree) (name location : Word) (required : Option Bool)
    (description : Option Description) :
    (Clause.param name.piece location.piece (some (tree.piece, required)) description).line layout =
      paramLead layout name location ++
        (tree.text ++ (requiredText layout required ++ quotedText layout (description.map (·.text)))) := by
  simp [line, body, value, typeText, paramLead, Clause.description, quotedText, detail,
    Detail.keyword, TypeTree.piece]

end

end Clause

namespace TypeTree

/-- What is read from a line with a tree in it from column `place` on: a reference for each node, in
order, and at every column of a node its reference. -/
structure ReadsBack (tree : TypeTree) (origin : Origin) (line : Text) (place : Nat) : Prop where
  references : ∀ number : Int, ∃ field, Field.ofLine line number = .ok (some field) ∧
    field.references = (tree.nodes place 0).map (·.reference origin number)
  nearest : ∀ (marker : Text) (lines : List Text) (number : Nat) (notes : List Note),
    lineAt? lines number = some line → AfterMarker marker lines number →
    Note.ofLines marker lines = .ok notes → ∀ node ∈ tree.nodes place 0, ∀ column : Int,
      node.place ≤ column → column < node.stop → ∀ reach : Number,
        Note.nearest? notes number (Number.int column) reach = some (node.reference origin number)

theorem readsBack_of_references {tree : TypeTree} {origin : Origin} {line : Text} {place : Nat}
    (references : ∀ number : Int, ∃ field, Field.ofLine line number = .ok (some field) ∧
      field.references = (tree.nodes place 0).map (·.reference origin number)) :
    tree.ReadsBack origin line place := by
  refine ⟨references, fun marker lines number notes found after read node inside column lower upper
    reach => ?_⟩
  obtain ⟨field, made, same⟩ := references number
  have there : ∀ reference, reference ∈ Note.referencesAt notes number ↔
      ∃ node ∈ tree.nodes place 0, node.reference origin number = reference := fun reference => by
    rw [Note.mem_referencesAt_iff_of_ofLine read after found made, same, List.mem_map]
  refine Note.nearestOf_of_covers ((there _).mpr ⟨node, inside, rfl⟩) ⟨lower, upper⟩ ?_ reach
  rintro other member covered
  obtain ⟨another, known, rfl⟩ := (there other).mp member
  rw [(tree.nodes_ascend place 0).eq_of_covers known inside covered ⟨lower, upper⟩]

/-- A tree in which no name is part of a name before it is read back as it was written, as the model of
an outcome and as the type of a parameter. -/
theorem readBack (tree : TypeTree)
    (apart : tree.names.Pairwise fun earlier later => ¬later.text <:+: earlier.text) (layout : Layout)
    (description : Option Clause.Description) :
    (∀ (outcome : Outcome) (status : Clause.Status) (kind : Clause.Word), tree.ReadsBack .response
      ((Clause.response outcome status kind.object (some tree.model) description).line layout)
      (Clause.responseLead layout outcome status kind).length) ∧
    ∀ (name location : Clause.Word) (required : Option Bool), tree.ReadsBack .request
      ((Clause.param name.piece location.piece (some (tree.piece, required)) description).line layout)
      (Clause.paramLead layout name location).length := by
  constructor
  · intro outcome status kind
    refine readsBack_of_references fun number => ⟨_, Clause.ofLine_line _ layout number, ?_⟩
    have plain := Clause.responseLead_allPlain layout outcome status kind
    have named : qualifiedNames tree.text = tree.names.map (·.text) := by
      have alone := tree.qualifiedNames_text [] (by simp)
      simpa [qualifiedNames, tokens, qualifiedNamesOf] using alone
    have placed := referencesIn_eq_map (Clause.opens_of_allPlain layout.afterSecond plain) plain.undotted
      apart named (Clause.quotedText layout (description.map (·.text))) .response number
    simp only [Clause.readReferences, Clause.region_of_model]
    rw [Clause.line_response]
    exact placed
  · intro name location required
    refine readsBack_of_references fun number => ⟨_, Clause.ofLine_line _ layout number, ?_⟩
    have plain := Clause.paramLead_allPlain layout name location
    have named := Clause.qualifiedNames_param layout tree name location required description
    have placed := referencesIn_eq_map (Clause.opens_of_allPlain layout.afterSecond plain) plain.undotted
      apart named (Clause.requiredText layout required ++
        Clause.quotedText layout (description.map (·.text))) .request number
    simp only [Clause.readReferences, Clause.references]
    rw [Clause.line_param]
    exact placed

/-- A response of items. -/
def itemResponse : TypeTree :=
  .node ⟨"responses".toList, "Response".toList, ⟨by decide, List.all_eq_true.mp (by decide)⟩,
      ⟨by decide, List.all_eq_true.mp (by decide)⟩⟩
    [.node ⟨"models".toList, "Item".toList, ⟨by decide, List.all_eq_true.mp (by decide)⟩,
      ⟨by decide, List.all_eq_true.mp (by decide)⟩⟩ []]

def okStatus : Clause.Status := ⟨"200".toList, by decide, List.all_eq_true.mp (by decide), by decide⟩

/-- An outcome with the response as its model. -/
def itemOutcome : Clause :=
  .response .success okStatus
    (Clause.Word.object ⟨"object".toList, by decide, List.all_eq_true.mp (by decide)⟩)
    (some itemResponse.model) (some ⟨"see models.Item".toList, by decide⟩)

def itemLine : Text := "// @Success 200 {object} responses.Response[models.Item] \"see models.Item\"".toList

/-- The response and the items in it are read, and a column of the items finds them. -/
theorem readBack_small : itemOutcome.line Clause.singleSpaced = itemLine ∧
    (∃ field, Field.ofLine itemLine 2 = .ok (some field) ∧ field.references =
      [⟨2, 25, 43, "responses.Response".toList, 0, .response⟩,
        ⟨2, 44, 55, "models.Item".toList, 1, .response⟩]) ∧
    ∃ notes, Note.ofLines defaultMarker ["// godoc".toList, itemLine] = .ok notes ∧
      Note.nearest? notes 2 (Number.int 50) (Number.int 0) =
        some ⟨2, 44, 55, "models.Item".toList, 1, .response⟩ := by
  have apart : itemResponse.names.Pairwise fun earlier later => ¬later.text <:+: earlier.text := by
    decide +kernel
  have line : itemOutcome.line Clause.singleSpaced = itemLine := by decide +kernel
  have back := (readBack itemResponse apart Clause.singleSpaced
    (some ⟨"see models.Item".toList, by decide⟩)).1
    .success okStatus
    ⟨"object".toList, by decide, List.all_eq_true.mp (by decide)⟩
  have known : itemResponse.ReadsBack .response itemLine 25 := line ▸ back
  obtain ⟨field, made, same⟩ := known.references 2
  refine ⟨line, ⟨field, made, same⟩, ?_⟩
  obtain ⟨notes, read⟩ : ∃ notes, Note.ofLines defaultMarker ["// godoc".toList, itemLine] = .ok notes :=
    ⟨_, rfl⟩
  refine ⟨notes, read, ?_⟩
  exact known.nearest defaultMarker _ 2 notes rfl (by decide +kernel) read _
    (List.mem_cons_of_mem _ List.mem_cons_self) 50 (by decide) (by decide) _

end TypeTree

end ApiNotes
