import ApiNotes.Proofs.Spans
import ApiNotes.Proofs.Totality

/-!
# Documents around a line of code

A line that is no comment parts a document. Whatever is read of the whole document is what is read of
the lines before that line, followed by what is read of the lines after it, moved down by as many
lines as stand above (`reads_parts`). So no reader carries anything over a line of code: not the
scan for blocks (`Block.scan_append`), nor the order of all spans (`Ordered.sort_append`).
-/

namespace ApiNotes

/-! ## Moving down -/

/-- The block that many lines further down. -/
def Block.moved (block : Block) (down : Int) : Block := ⟨block.first + down, block.last + down⟩

def Reference.moved (reference : Reference) (down : Int) : Reference :=
  { reference with line := reference.line + down }

/-- The field that many lines further down, with its references. -/
def Field.moved (field : Field) (down : Int) : Field :=
  { field with line := field.line + down, references := field.references.map (·.moved down) }

def Note.moved (note : Note) (down : Int) : Note :=
  ⟨note.block.moved down, note.fields.map (·.moved down)⟩

/-- The fold that many lines further down. It hides as many lines. -/
def Fold.moved (fold : Fold) (down : Int) : Fold := { fold with block := fold.block.moved down }

def Span.moved (span : Span) (down : Int) : Span := { span with line := span.line + down }

section

variable {marker line : Text} {before after : List Text} {down : Int}

/-! ## Blocks -/

namespace Block

def Entered.moved (entered : Entered) (down : Int) : Entered :=
  { entered with first := entered.first + down }

variable {entered : Option Entered}

/-- A line of code ends the block that was entered and leaves the scan as it is at the start. -/
theorem scan_append (other : isComment line = false) (number : Int) (entered : Option Entered) :
    scan marker number entered (before ++ line :: after) =
      scan marker number entered before ++
        scan marker (number + (before.length + 1)) none after := by
  induction before generalizing number entered with
  | nil => simp [scan_other other, scan]
  | cons first rest ih =>
    have next : number + 1 + ((rest.length : Int) + 1) = number + (((first :: rest).length : Nat) + 1) := by
      rw [List.length_cons]
      omega
    by_cases comment : isComment first = true
    · rw [List.cons_append, scan_comment comment, scan_comment comment, ih, next]
    · have code : isComment first = false := by simpa using comment
      rw [List.cons_append, scan_other code, scan_other code, ih, next, List.append_assoc]

theorem enter_moved (number : Int) :
    enter marker line (number + down) (entered.map (·.moved down)) =
      (enter marker line number entered).map (·.moved down) := by
  cases entered with
  | some block => rfl
  | none =>
    simp only [enter, Option.map_none]
    split_ifs <;> rfl

theorem ending_moved (number : Int) :
    ending (number + down) (entered.map (·.moved down)) =
      (ending number entered).map (·.moved down) := by
  rcases entered with _ | ⟨first, _ | _⟩
  · rfl
  · rfl
  · have last : number + down - 1 = number - 1 + down := by omega
    simp [ending, Entered.moved, moved, last]

/-- The scan finds the same blocks wherever it starts to count. -/
theorem scan_moved (number : Int) (entered : Option Entered) (lines : List Text) :
    scan marker (number + down) (entered.map (·.moved down)) lines =
      (scan marker number entered lines).map (·.moved down) := by
  induction lines generalizing number entered with
  | nil => exact ending_moved number
  | cons line rest ih =>
    have next : number + down + 1 = number + 1 + down := by omega
    by_cases comment : isComment line = true
    · rw [scan_comment comment, scan_comment comment, enter_moved, next, ih]
    · have code : isComment line = false := by simpa using comment
      rw [scan_other code, scan_other code, ending_moved, next, List.map_append, ← ih, Option.map_none]

theorem ofLines_append (other : isComment line = false) :
    ofLines marker (before ++ line :: after) =
      ofLines marker before ++ (ofLines marker after).map (·.moved (before.length + 1)) := by
  have later : scan marker (1 + (before.length + 1)) none after =
      (scan marker 1 none after).map (·.moved (before.length + 1)) := scan_moved 1 none after
  rw [ofLines, scan_append other, later]
  rfl

end Block

theorem Fold.ofLines_append (other : isComment line = false) :
    ofLines marker (before ++ line :: after) =
      ofLines marker before ++ (ofLines marker after).map (·.moved (before.length + 1)) := by
  rw [ofLines, Block.ofLines_append other, List.filterMap_append, List.filterMap_map, ofLines, ofLines,
    List.map_filterMap]
  congr 2
  funext block
  have hidden : block.last + ((before.length : Int) + 1) - (block.first + (before.length + 1)) =
      block.last - block.first := by omega
  simp only [Function.comp, Block.moved, hidden]
  split_ifs <;> rfl

/-! ## Lines of blocks -/

theorem numbered_append (before after : List Text) (line : Text) :
    numbered (before ++ line :: after) =
      numbered before ++ (line, before.length + 1) ::
        (numbered after).map fun entry => (entry.1, entry.2 + (before.length + 1)) := by
  have counted : after.zipIdx (1 + before.length + 1) =
      (after.zipIdx 1).map fun entry => (entry.1, entry.2 + (before.length + 1)) := by
    have start : 1 + before.length + 1 = before.length + 1 + 1 := by omega
    rw [start, ← List.map_snd_add_zipIdx_eq_zipIdx]
    rfl
  have middle : 1 + before.length = before.length + 1 := by omega
  rw [numbered, List.zipIdx_append, List.zipIdx_cons, counted, middle]
  rfl

namespace Block

variable {block : Block}

theorem contains_moved (block : Block) (down place : Int) :
    (block.moved down).contains (place + down) = block.contains place := by
  rw [contains, contains, decide_eq_decide]
  show block.first + down ≤ place + down ∧ place + down ≤ block.last + down ↔ _
  omega

/-- Lines after a block do not belong to it. -/
theorem linesOf_append_of_le (inside : block.last ≤ before.length) :
    block.linesOf (before ++ line :: after) = block.linesOf before := by
  have beyond : ∀ number : Nat, before.length < number → ¬block.contains number = true := by
    intro number past contained
    rw [contains, decide_eq_true_eq] at contained
    omega
  have none : ((line, before.length + 1) ::
      (numbered after).map fun entry => (entry.1, entry.2 + (before.length + 1))).filter
      (fun entry => block.contains (entry.2 : Nat)) = [] := by
    rw [List.filter_eq_nil_iff]
    intro entry member
    rcases List.mem_cons.mp member with rfl | later
    · exact beyond _ (Nat.lt_succ_self _)
    · obtain ⟨source, -, rfl⟩ := List.mem_map.mp later
      exact beyond _ (by dsimp only; omega)
  rw [linesOf, numbered_append, List.filter_append, none, List.append_nil, linesOf]

/-- Neither do lines before it. -/
theorem linesOf_append_moved (positive : 1 ≤ block.first) :
    (block.moved (before.length + 1)).linesOf (before ++ line :: after) =
      (block.linesOf after).map fun entry => (entry.1, entry.2 + (before.length + 1)) := by
  have early : ∀ number : Nat, number ≤ before.length + 1 →
      ¬(block.moved (before.length + 1)).contains number = true := by
    intro number above contained
    rw [contains, decide_eq_true_eq, moved] at contained
    dsimp only at contained
    omega
  have none : (numbered before ++ [(line, before.length + 1)]).filter
      (fun entry => (block.moved (before.length + 1)).contains (entry.2 : Nat)) = [] := by
    rw [List.filter_eq_nil_iff]
    intro entry member
    rcases List.mem_append.mp member with first | middle
    · obtain ⟨lower, upper, -⟩ := List.mem_zipIdx first
      exact early entry.2 (by omega)
    · obtain rfl := List.mem_singleton.mp middle
      exact early _ (Nat.le_refl _)
  rw [linesOf, numbered_append, List.append_cons, List.filter_append, none, List.nil_append,
    List.filter_map, linesOf]
  congr 2
  funext entry
  exact contains_moved block (before.length + 1) entry.2

end Block

/-! ## Fields -/

section

variable {α β γ δ ε : Type} {f : α → Except ε β} {g : γ → Except ε δ} {h : β → δ} {k : α → γ}

/-- Items that are read alike one by one are read alike together. -/
theorem mapM_map_of_forall {items : List α} (each : ∀ item ∈ items, g (k item) = (f item).map h) :
    (items.map k).mapM g = (items.mapM f).map (List.map h) := by
  induction items with
  | nil => rfl
  | cons item rest ih =>
    rw [List.map_cons, List.mapM_cons, List.mapM_cons, each item (by simp),
      ih fun other member => each other (by simp [member])]
    cases f item with
    | error error => rfl
    | ok result => cases rest.mapM f <;> rfl

theorem mapM_congr {f' : α → Except ε β} {items : List α} (same : ∀ item ∈ items, f' item = f item) :
    items.mapM f' = items.mapM f := by
  induction items with
  | nil => rfl
  | cons item rest ih =>
    rw [List.mapM_cons, List.mapM_cons, same item (by simp),
      ih fun other member => same other (by simp [member])]

end

theorem referencesIn_moved (origin : Origin) (line : Text) (number : Int) (region : Text) :
    referencesIn origin line (number + down) region =
      (referencesIn origin line number region).map (·.moved down) := by
  rw [referencesIn, referencesIn, List.map_filterMap]
  congr 1
  funext name
  cases Text.find? name line <;> rfl

namespace Field

theorem ofResponse_moved (outcome : Outcome) (line : Text) (number : Int) (rest : Text) :
    ofResponse outcome line (number + down) rest =
      (ofResponse outcome line number rest).map (Option.map (·.moved down)) := by
  unfold ofResponse
  cases responseParts? rest with
  | none => rfl
  | some parts =>
    obtain ⟨digits, object, more⟩ := parts
    dsimp only
    cases statusOf digits with
    | error error => rfl
    | ok status =>
      rw [referencesIn_moved]
      rfl

theorem ofParam_moved (line : Text) (number : Int) (rest : Text) :
    ofParam line (number + down) rest = (ofParam line number rest).map (·.moved down) := by
  unfold ofParam
  dsimp only
  rw [referencesIn_moved]
  rcases Text.words (splitDescription rest).1 with _ | ⟨name, _ | ⟨location, more⟩⟩ <;> rfl

/-- What a line says does not depend on its number. -/
theorem ofLine_moved (line : Text) (number : Int) :
    ofLine line (number + down) = (ofLine line number).map (Option.map (·.moved down)) := by
  unfold ofLine
  cases keywordAndRest? line with
  | none => rfl
  | some read =>
    obtain ⟨word, rest⟩ := read
    dsimp only
    cases Keyword.ofText? word with
    | none => rfl
    | some keyword =>
      cases keyword with
      | outcome outcome => exact ofResponse_moved outcome line number rest
      | param => exact congrArg Except.ok (ofParam_moved line number rest)
      | router =>
        dsimp only [ofRouter]
        cases routeParts? rest <;> rfl
      | security =>
        dsimp only [ofSecurity]
        cases Text.word? rest <;> rfl
      | tag name => rfl

/-- Nor does what reading a block yields depend on where the block stands. -/
theorem ofBlock_append_moved {block : Block} (positive : 1 ≤ block.first) :
    ofBlock (block.moved (before.length + 1)) (before ++ line :: after) =
      (ofBlock block after).map (List.map (·.moved (before.length + 1))) := by
  have each : (((block.linesOf after).map fun entry => (entry.1, entry.2 + (before.length + 1))).mapM
      fun entry => ofLine entry.1 (entry.2 : Nat)) =
      ((block.linesOf after).mapM fun entry => ofLine entry.1 (entry.2 : Nat)).map
        (List.map (Option.map (·.moved (before.length + 1)))) := by
    refine mapM_map_of_forall fun entry _ => ?_
    push_cast
    exact ofLine_moved entry.1 entry.2
  unfold ofBlock
  rw [Block.linesOf_append_moved positive, each]
  cases (block.linesOf after).mapM fun entry => ofLine entry.1 (entry.2 : Nat) with
  | error error => rfl
  | ok fields =>
    show Except.ok ((fields.map (Option.map (·.moved (before.length + 1)))).filterMap id) =
      Except.ok ((fields.filterMap id).map (·.moved (before.length + 1)))
    rw [List.filterMap_map, List.map_filterMap]
    rfl

theorem ofBlock_append_of_le {block : Block} (inside : block.last ≤ before.length) :
    ofBlock block (before ++ line :: after) = ofBlock block before := by
  unfold ofBlock
  rw [Block.linesOf_append_of_le inside]

end Field

/-! ## Notes -/

namespace Note

theorem ofBlock_append_of_le {block : Block} (inside : block.last ≤ before.length) :
    ofBlock (before ++ line :: after) block = ofBlock before block := by
  unfold ofBlock
  rw [Field.ofBlock_append_of_le inside]

theorem ofBlock_append_moved {block : Block} (positive : 1 ≤ block.first) :
    ofBlock (before ++ line :: after) (block.moved (before.length + 1)) =
      (ofBlock after block).map (·.moved (before.length + 1)) := by
  unfold ofBlock
  rw [Field.ofBlock_append_moved positive]
  cases Field.ofBlock block after <;> rfl

/-- The first line that cannot be read is the first one before the line of code or, if there is none,
the first one after it. -/
theorem ofLines_append (other : isComment line = false) :
    ofLines marker (before ++ line :: after) = (do
      let first ← ofLines marker before
      let later ← ofLines marker after
      return first ++ later.map (·.moved (before.length + 1))) := by
  have front : (Block.ofLines marker before).mapM (ofBlock (before ++ line :: after)) =
      ofLines marker before :=
    mapM_congr fun block member => ofBlock_append_of_le (Block.bounds_of_mem member).2.2
  have back : ((Block.ofLines marker after).map (·.moved (before.length + 1))).mapM
      (ofBlock (before ++ line :: after)) =
      (ofLines marker after).map (List.map (·.moved (before.length + 1))) :=
    mapM_map_of_forall fun block member => ofBlock_append_moved (Block.bounds_of_mem member).1
  show (Block.ofLines marker (before ++ line :: after)).mapM (ofBlock (before ++ line :: after)) = _
  rw [Block.ofLines_append other, List.mapM_append, front, back]
  cases ofLines marker before with
  | error error => rfl
  | ok first => cases ofLines marker after <;> rfl

end Note

/-! ## Spans -/

namespace Field

theorem detailSpans_moved (field : Field) (line : Text) :
    (field.moved down).detailSpans line = (field.detailSpans line).map (·.moved down) := by
  obtain ⟨number, detail, value, description, references⟩ := field
  cases detail with
  | response outcome status object =>
    dsimp only [detailSpans, moved]
    cases firstFrom responseSpots? 0 line <;> rfl
  | param name location type required =>
    dsimp only [detailSpans, moved]
    cases firstFrom paramSpots? 0 line with
    | none => rfl
    | some spots =>
      obtain ⟨name, location, type, required⟩ := spots
      cases type <;> cases required <;> rfl
  | router path methods =>
    dsimp only [detailSpans, moved]
    cases firstFrom routeSpots? 0 line with
    | none => rfl
    | some spots =>
      obtain ⟨path, methods⟩ := spots
      cases methods <;> simp [Span.moved, Part.span]
  | security scheme =>
    dsimp only [detailSpans, moved]
    cases firstFrom schemePart? 0 line <;> rfl
  | tag name => rfl

theorem spans_moved (field : Field) (line : Text) :
    (field.moved down).spans line = (field.spans line).map (·.moved down) := by
  have detail : (field.moved down).detailSpans line = _ := detailSpans_moved field line
  obtain ⟨number, what, value, description, references⟩ := field
  unfold spans
  rw [List.map_append, List.map_append, List.map_append]
  refine congrArg₂ _ (congrArg₂ _ (congrArg₂ _ ?keyword detail) ?description) ?references
  case keyword => cases firstFrom keywordPart? 0 line <;> rfl
  case description => cases description <;> cases firstFrom quotedPart? 0 line <;> rfl
  case references =>
    simp only [moved, List.map_map]
    rfl

end Field

theorem Block.commentSpan?_moved (block : Block) (line : Text) (number : Int) :
    (block.moved down).commentSpan? line (number + down) =
      (block.commentSpan? line number).map (·.moved down) := by
  have first : number + down = (block.moved down).first ↔ number = block.first := by
    show number + down = block.first + down ↔ _
    omega
  unfold commentSpan?
  cases Text.find? ['/', '/'] line with
  | none => rfl
  | some place =>
    simp only [first]
    split_ifs <;> rfl

namespace Note

variable {note : Note} {lines : List Text} {notes : List Note}

/-- The lines of a note lie within the document. -/
theorem bounds_of_contains (read : ofLines marker lines = .ok notes) (member : note ∈ notes) {place : Int}
    (contained : note.block.contains place = true) : 1 ≤ place ∧ place ≤ lines.length := by
  obtain ⟨lower, -, upper⟩ := Block.bounds_of_mem (ofBlock_of_mem read member).1
  rw [Block.contains, decide_eq_true_eq] at contained
  omega

theorem bounds_of_mem_fields (read : ofLines marker lines = .ok notes) (member : note ∈ notes)
    {field : Field} (inside : field ∈ note.fields) : 1 ≤ field.line ∧ field.line ≤ lines.length := by
  obtain ⟨_, number, -, contained, made⟩ := exists_line_of_mem read member inside
  rw [(Field.isOn_of_ofLine made).1]
  exact bounds_of_contains read member contained

theorem bounds_of_mem_spans (read : ofLines marker lines = .ok notes) {span : Span}
    (listed : span ∈ notes.flatMap (·.spans lines)) : 1 ≤ span.line ∧ span.line ≤ lines.length := by
  obtain ⟨note, member, inside⟩ := List.mem_flatMap.mp listed
  exact bounds_of_contains read member (contains_of_mem_spans read member inside)

theorem spans_append_of_le (inside : note.block.last ≤ before.length)
    (placed : ∀ field ∈ note.fields, 1 ≤ field.line ∧ field.line ≤ before.length) :
    note.spans (before ++ line :: after) = note.spans before := by
  unfold spans
  rw [Block.linesOf_append_of_le inside]
  congr 1
  refine List.flatMap_congr fun field member => ?_
  obtain ⟨lower, upper⟩ := placed field member
  rw [List.getElem?_append_left (by omega)]

theorem spans_append_moved (positive : 1 ≤ note.block.first)
    (placed : ∀ field ∈ note.fields, 1 ≤ field.line) :
    (note.moved (before.length + 1)).spans (before ++ line :: after) =
      (note.spans after).map (·.moved (before.length + 1)) := by
  unfold spans
  rw [List.map_append]
  refine congrArg₂ _ ?comments ?fields
  case comments =>
    rw [moved, Block.linesOf_append_moved positive, List.filterMap_map, List.map_filterMap]
    congr 1
    funext entry
    show (note.block.moved (before.length + 1)).commentSpan? entry.1 (entry.2 + (before.length + 1) : Nat) = _
    push_cast
    exact note.block.commentSpan?_moved entry.1 entry.2
  case fields =>
    rw [moved, List.flatMap_map, List.map_flatMap]
    refine List.flatMap_congr fun field member => ?_
    have further : ((field.moved (before.length + 1)).line - 1).toNat =
        before.length + ((field.line - 1).toNat + 1) := by
      have := placed field member
      show (field.line + (before.length + 1) - 1).toNat = _
      omega
    rw [further, List.getElem?_append_right (by omega), Nat.add_sub_cancel_left,
      List.getElem?_cons_succ, Field.spans_moved]

end Note

theorem Span.le_moved (a b : Span) (down : Int) : le (a.moved down) (b.moved down) = le a b := by
  rw [le, le, decide_eq_decide]
  show a.line + down < b.line + down ∨ a.line + down = b.line + down ∧ _ ↔ _
  simp only [moved]
  omega

theorem highlight_append (other : isComment line = false) :
    highlight marker (before ++ line :: after) = (do
      let first ← highlight marker before
      let later ← highlight marker after
      return first ++ later.map (·.moved (before.length + 1))) := by
  unfold highlight
  rw [Note.ofLines_append other]
  cases front : Note.ofLines marker before with
  | error error => rfl
  | ok first =>
    cases back : Note.ofLines marker after with
    | error error => rfl
    | ok later =>
      have firstSpans : first.flatMap (·.spans (before ++ line :: after)) =
          first.flatMap (·.spans before) := by
        refine List.flatMap_congr fun note member => ?_
        have upper := (Block.bounds_of_mem (Note.ofBlock_of_mem front member).1).2.2
        exact Note.spans_append_of_le upper fun field => Note.bounds_of_mem_fields front member
      have laterSpans :
          (later.map (·.moved (before.length + 1))).flatMap (·.spans (before ++ line :: after)) =
            (later.flatMap (·.spans after)).map (·.moved (before.length + 1)) := by
        rw [List.flatMap_map, List.map_flatMap]
        refine List.flatMap_congr fun note member => ?_
        have lower := (Block.bounds_of_mem (Note.ofBlock_of_mem back member).1).1
        exact Note.spans_append_moved lower fun field inside =>
          (Note.bounds_of_mem_fields back member inside).1
      -- The spans before the line of code lie on lower lines than those after it.
      have apart : ∀ span ∈ first.flatMap (·.spans before),
          ∀ other ∈ (later.flatMap (·.spans after)).map (·.moved (before.length + 1)),
            Span.le span other = true := by
        intro span low other high
        obtain ⟨source, listed, rfl⟩ := List.mem_map.mp high
        have upper := (Note.bounds_of_mem_spans front low).2
        have lower := (Note.bounds_of_mem_spans back listed).1
        rw [Span.le, decide_eq_true_eq]
        left
        show span.line < source.line + (before.length + 1)
        omega
      show Except.ok (Ordered.sort Span.le
        ((first ++ later.map (·.moved (before.length + 1))).flatMap _)) = Except.ok (_ ++ _)
      rw [List.flatMap_append, firstSpans, laterSpans, Ordered.sort_append apart,
        Ordered.sort_map fun a b => Span.le_moved a b _]

/-- A line of code parts a document: its blocks, notes, folds and spans are those of the lines before
that line and, moved down, those of the lines after it. Where a part cannot be read, neither can the
document. -/
theorem reads_parts (marker : Text) (before after : List Text) (line : Text)
    (other : isComment line = false) :
    Block.ofLines marker (before ++ line :: after) =
      Block.ofLines marker before ++
        (Block.ofLines marker after).map (·.moved (before.length + 1)) ∧
    Note.ofLines marker (before ++ line :: after) = (do
      let first ← Note.ofLines marker before
      let later ← Note.ofLines marker after
      return first ++ later.map (·.moved (before.length + 1))) ∧
    Fold.ofLines marker (before ++ line :: after) =
      Fold.ofLines marker before ++
        (Fold.ofLines marker after).map (·.moved (before.length + 1)) ∧
    highlight marker (before ++ line :: after) = (do
      let first ← highlight marker before
      let later ← highlight marker after
      return first ++ later.map (·.moved (before.length + 1))) :=
  ⟨Block.ofLines_append other, Note.ofLines_append other, Fold.ofLines_append other,
    highlight_append other⟩

/-- A documented function in the front part of a document. -/
def listLines : List Text := ["// List godoc", "// @Summary all users"].map String.toList

def addLines : List Text :=
  ["// @Summary not documented", "// Add godoc", "// @Param user body models.User"].map String.toList

/-- The second block is found three lines further down, and so are its field and what it refers to. -/
theorem reads_parts_small :
    isComment "func List() {}".toList = false ∧
    Block.ofLines defaultMarker (listLines ++ "func List() {}".toList :: addLines) =
      [⟨1, 2⟩, ⟨5, 6⟩] ∧
    Note.ofLines defaultMarker (listLines ++ "func List() {}".toList :: addLines) = .ok
      [⟨⟨1, 2⟩, [⟨2, .tag .summary, "all users".toList, none, []⟩]⟩,
        ⟨⟨5, 6⟩, [⟨6, .param "user".toList "body".toList (some "models.User".toList) none,
          "user body models.User".toList, none,
          [⟨6, 20, 31, "models.User".toList, 0, .request⟩]⟩]⟩] := by
  have code : isComment "func List() {}".toList = false := by decide
  obtain ⟨blocks, notes, -, -⟩ := reads_parts defaultMarker listLines addLines "func List() {}".toList code
  refine ⟨code, blocks.trans ?_, notes.trans ?_⟩
  · decide +kernel
  · decide +kernel

end

end ApiNotes
