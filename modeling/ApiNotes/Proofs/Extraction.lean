import ApiNotes.Proofs.Segments
import ApiNotes.Proofs.Statuses
import Mathlib.Data.Nat.Find
import Mathlib.Data.Nat.Init
import Mathlib.Data.List.Basic

/-!
# The fields of a document

Reading a document block by block comes to the same as reading, one after another, all lines from
the first marker line of a run of comments on (`Note.fields_ofLines`). A block without annotations
is passed over without loss, for a line that yields a field or cannot be read is an annotation
(`Field.ofLine_of_not_hasKeyword`).
-/

namespace ApiNotes

/-- A line that stands in a run of comments, at a marker line or after one. -/
def AfterMarker (marker : Text) (lines : List Text) (number : Nat) : Prop :=
  ∃ start, start ≤ number ∧ LineIs (isMarker marker) lines start ∧ IsRun lines start (number + 1)

instance (lines : List Text) (start stop : Nat) : Decidable (IsRun lines start stop) :=
  inferInstanceAs (Decidable (∀ n, start ≤ n → n < stop → LineIs isComment lines n))

instance (marker : Text) (lines : List Text) (number : Nat) :
    Decidable (AfterMarker marker lines number) :=
  inferInstanceAs (Decidable (∃ start, start ≤ number ∧ _))

/-- The lines of a document that stand at or after a marker, with their numbers. -/
def linesAfterMarker (marker : Text) (lines : List Text) : List (Text × Nat) :=
  (numbered lines).filter fun entry => AfterMarker marker lines entry.2

/-! ## Reading items one after another -/

section

variable {α β ε : Type} {f : α → Except ε (Option β)}

/-- What is read from the items of a list, in order, without the empty results. -/
def readAll (f : α → Except ε (Option β)) (items : List α) : Except ε (List β) := do
  let results ← items.mapM f
  return results.filterMap id

theorem readAll_nil : readAll f [] = .ok [] := rfl

theorem readAll_cons (item : α) (rest : List α) : readAll f (item :: rest) = (do
    let first ← f item
    let later ← readAll f rest
    return first.toList ++ later) := by
  unfold readAll
  rw [List.mapM_cons]
  rcases f item with error | _ | result
  · rfl
  · cases rest.mapM f <;> rfl
  · cases rest.mapM f <;> rfl

theorem readAll_append (items others : List α) : readAll f (items ++ others) = (do
    let first ← readAll f items
    let later ← readAll f others
    return first ++ later) := by
  induction items with
  | nil =>
    rw [readAll_nil, List.nil_append]
    cases readAll f others <;> rfl
  | cons item rest ih =>
    rw [List.cons_append, readAll_cons, readAll_cons, ih]
    cases f item with
    | error error => rfl
    | ok first =>
      cases readAll f rest with
      | error error => rfl
      | ok later => cases readAll f others <;> simp [bind, Except.bind, pure, Except.pure]

theorem readAll_map {g : α → α} {items : List α} (same : ∀ item ∈ items, f (g item) = f item) :
    readAll f (items.map g) = readAll f items := by
  induction items with
  | nil => rfl
  | cons item rest ih =>
    rw [List.map_cons, readAll_cons, readAll_cons, same item List.mem_cons_self,
      ih fun other member => same other (List.mem_cons_of_mem item member)]

/-- Items that yield nothing may be left out. -/
theorem readAll_filter {keep : α → Bool} {items : List α}
    (nothing : ∀ item ∈ items, keep item = false → f item = .ok none) :
    readAll f (items.filter keep) = readAll f items := by
  induction items with
  | nil => rfl
  | cons item rest ih =>
    have later := ih fun other member => nothing other (List.mem_cons_of_mem _ member)
    cases kept : keep item with
    | true => rw [List.filter_cons_of_pos kept, readAll_cons, readAll_cons, later]
    | false =>
      rw [List.filter_cons_of_neg (by simp [kept]), readAll_cons, nothing item (by simp) kept, later]
      cases readAll f rest <;> rfl

theorem mem_of_readAll {items : List α} {results : List β} (read : readAll f items = .ok results)
    {result : β} (member : result ∈ results) : ∃ item ∈ items, f item = .ok (some result) := by
  unfold readAll at read
  cases gathered : items.mapM f with
  | error error => simp [gathered, bind, Except.bind] at read
  | ok found =>
    obtain rfl : found.filterMap id = results := by
      simpa [gathered, bind, Except.bind, pure, Except.pure] using read
    obtain ⟨_, inside, rfl⟩ := List.mem_filterMap.mp member
    exact (exists_of_mapM_ok gathered).2 _ inside

theorem mem_readAll {items : List α} {results : List β} (read : readAll f items = .ok results)
    {item : α} (member : item ∈ items) {result : β} (made : f item = .ok (some result)) :
    result ∈ results := by
  unfold readAll at read
  cases gathered : items.mapM f with
  | error error => simp [gathered, bind, Except.bind] at read
  | ok found =>
    obtain rfl : found.filterMap id = results := by
      simpa [gathered, bind, Except.bind, pure, Except.pure] using read
    obtain ⟨other, inside, same⟩ := (exists_of_mapM_ok gathered).1 item member
    obtain rfl := Except.ok.inj (made.symm.trans same)
    exact List.mem_filterMap.mpr ⟨_, inside, rfl⟩

end

/-! ## Lines without annotations -/

section

variable {line : Text} {number : Int}

theorem keywordAndRest?_eq_none (plain : hasKeyword line = false) : keywordAndRest? line = none := by
  unfold hasKeyword at plain
  unfold keywordAndRest?
  cases text : annotationText? line with
  | none => rfl
  | some rest =>
    have noWord : Text.word? rest = none := by simpa [text] using plain
    simp [noWord]

/-- A line that is no annotation has no field. -/
theorem Field.ofLine_of_not_hasKeyword (plain : hasKeyword line = false) :
    Field.ofLine line number = .ok none := by
  rw [Field.ofLine, keywordAndRest?_eq_none plain]

theorem line_of_mem_referencesIn {origin : Origin} {region : Text} {reference : Reference}
    (member : reference ∈ referencesIn origin line number region) : reference.line = number := by
  simp only [referencesIn, List.mem_filterMap, Option.map_eq_some_iff] at member
  obtain ⟨name, -, start, -, rfl⟩ := member
  rfl

/-- A field that belongs to a line, with all its references. -/
def Field.IsOn (field : Field) (number : Int) : Prop :=
  field.line = number ∧ ∀ reference ∈ field.references, reference.line = number

theorem Field.isOn_of_ofResponse {outcome : Outcome} {rest : Text} {field : Field}
    (read : ofResponse outcome line number rest = .ok (some field)) : field.IsOn number := by
  unfold ofResponse at read
  split at read
  · simp at read
  · rename_i digits object more _
    cases status : statusOf digits with
    | error error => simp [status, bind, Except.bind] at read
    | ok code =>
      simp only [status, bind, Except.bind, pure, Except.pure] at read
      obtain rfl := Option.some.inj (Except.ok.inj read)
      exact ⟨rfl, fun reference member => line_of_mem_referencesIn member⟩

theorem Field.isOn_of_ofParam {rest : Text} {field : Field}
    (read : ofParam line number rest = some field) : field.IsOn number := by
  unfold ofParam at read
  split at read
  split at read
  · obtain rfl := Option.some.inj read
    exact ⟨rfl, fun reference member => line_of_mem_referencesIn member⟩
  · simp at read

/-- The field of a line says which line that is, and so do its references. -/
theorem Field.isOn_of_ofLine {field : Field} (read : ofLine line number = .ok (some field)) :
    field.IsOn number := by
  unfold ofLine at read
  split at read
  · simp at read
  · split at read
    · simp at read
    · exact isOn_of_ofResponse read
    · exact isOn_of_ofParam (Except.ok.inj read)
    · obtain ⟨_, -, rfl⟩ := Option.map_eq_some_iff.mp (Except.ok.inj read)
      exact ⟨rfl, by simp⟩
    · obtain ⟨_, -, rfl⟩ := Option.map_eq_some_iff.mp (Except.ok.inj read)
      exact ⟨rfl, by simp⟩
    · obtain rfl := Option.some.inj (Except.ok.inj read)
      exact ⟨rfl, by simp [ofTag]⟩

end

/-! ## Blocks and the lines after markers -/

section

variable {marker line : Text} {lines : List Text} {number : Nat}

theorem mem_numbered_iff : (line, number) ∈ numbered lines ↔ lineAt? lines number = some line := by
  rw [numbered, List.mk_mem_zipIdx_iff_le_and_getElem?_sub]
  cases number with
  | zero => simp [lineAt?]
  | succ n => simp [lineAt?]

theorem numbered_ascending (lines : List Text) : (numbered lines).Pairwise fun a b => a.2 < b.2 := by
  suffices ascending : ∀ first, (lines.zipIdx first).Pairwise fun a b => a.2 < b.2 from ascending 1
  induction lines with
  | nil => simp
  | cons line rest ih =>
    intro first
    rw [List.zipIdx_cons, List.pairwise_cons]
    refine ⟨fun later member => ?_, ih (first + 1)⟩
    have := (List.mem_zipIdx_iff_le_and_getElem?_sub.mp member).1
    omega

/-- Fields are listed by ascending lines. -/
theorem pairwise_of_readAll {items : List (Text × Nat)} {fields : List Field}
    (ascending : items.Pairwise fun a b => a.2 < b.2)
    (read : readAll (fun entry => Field.ofLine entry.1 entry.2) items = .ok fields) :
    fields.Pairwise fun a b => a.line < b.line := by
  induction items generalizing fields with
  | nil =>
    cases read
    exact .nil
  | cons item rest ih =>
    obtain ⟨below, ascending⟩ := List.pairwise_cons.mp ascending
    rw [readAll_cons] at read
    cases first : Field.ofLine item.1 item.2 with
    | error error => simp [first, bind, Except.bind] at read
    | ok field =>
      cases later : readAll (fun entry => Field.ofLine entry.1 entry.2) rest with
      | error error => simp [first, later, bind, Except.bind] at read
      | ok others =>
        obtain rfl : field.toList ++ others = fields := by
          simpa [first, later, bind, Except.bind, pure, Except.pure] using read
        have sorted := ih ascending later
        cases field with
        | none => exact sorted
        | some field =>
          refine List.pairwise_cons.mpr ⟨?_, sorted⟩
          intro other member
          obtain ⟨next, inside, made⟩ := mem_of_readAll later member
          rw [(Field.isOn_of_ofLine first).1, (Field.isOn_of_ofLine made).1]
          exact Int.ofNat_lt.mpr (below next inside)

/-- Of ascending items, those that satisfy `p` and then those that satisfy `q` are all in order when
`p` holds only before `q`. -/
theorem filter_append_filter {entries : List (Text × Nat)} {p q : Nat → Bool}
    (ascending : entries.Pairwise fun a b => a.2 < b.2)
    (apart : ∀ m n, p m = true → q n = true → m < n) :
    entries.filter (p ·.2) ++ entries.filter (q ·.2) = entries.filter fun e => p e.2 || q e.2 := by
  induction entries with
  | nil => rfl
  | cons entry rest ih =>
    obtain ⟨below, later⟩ := List.pairwise_cons.mp ascending
    have joined := ih later
    cases pHere : p entry.2 with
    | true =>
      have qHere : q entry.2 = false := by
        by_contra holds
        exact absurd (apart _ _ pHere (by simpa using holds)) (by omega)
      simpa [pHere, qHere] using joined
    | false =>
      cases qHere : q entry.2 with
      | false => simpa [pHere, qHere] using joined
      | true =>
        have none : rest.filter (p ·.2) = [] := by
          rw [List.filter_eq_nil_iff]
          intro other member holds
          have := apart _ _ holds qHere
          have := below other member
          omega
        rw [none, List.nil_append] at joined
        simp [pHere, qHere, none, joined]

/-- The lines of blocks that follow one another are the lines that one of them contains. -/
theorem flatMap_linesOf {blocks : List Block}
    (ascending : blocks.Pairwise fun a b => a.last < b.first) (lines : List Text) :
    blocks.flatMap (·.linesOf lines) =
      (numbered lines).filter fun entry => blocks.any (·.contains entry.2) := by
  induction blocks with
  | nil => simp
  | cons block rest ih =>
    obtain ⟨below, later⟩ := List.pairwise_cons.mp ascending
    have apart : ∀ m n : Nat, block.contains m = true → rest.any (·.contains n) = true → m < n := by
      intro m n inside somewhere
      obtain ⟨other, member, contained⟩ := List.any_eq_true.mp somewhere
      have := below other member
      simp only [Block.contains, decide_eq_true_eq] at inside contained
      omega
    rw [List.flatMap_cons, ih later]
    exact filter_append_filter (p := fun n => block.contains n)
      (q := fun n => rest.any (·.contains n)) (numbered_ascending lines) apart

theorem any_contains_iff : (Block.ofLines marker lines).any (·.contains number) = true ↔
    ∃ first last, IsBlock marker lines first last ∧ first ≤ number ∧ number ≤ last := by
  simp only [List.any_eq_true, Block.mem_ofLines_iff, Block.contains, decide_eq_true_eq]
  constructor
  · rintro ⟨_, ⟨first, last, rfl, block⟩, lower, upper⟩
    exact ⟨first, last, block, by simpa using lower, by simpa using upper⟩
  · rintro ⟨first, last, block, lower, upper⟩
    exact ⟨_, ⟨first, last, rfl, block⟩, by simpa using lower, by simpa using upper⟩

/-- A run of comments goes on to an end of its own. -/
theorem exists_runEnd {start : Nat} (run : IsRun lines start (number + 1))
    (inside : number ≤ lines.length) : ∃ last, number ≤ last ∧ last ≤ lines.length ∧
      IsRun lines start (last + 1) ∧ (last = lines.length ∨ ¬LineIs isComment lines (last + 1)) := by
  obtain ⟨left, total⟩ : ∃ left, lines.length = number + left := ⟨lines.length - number, by omega⟩
  induction left generalizing number with
  | zero => exact ⟨number, by omega, inside, run, .inl (by omega)⟩
  | succ left ih =>
    by_cases comment : LineIs isComment lines (number + 1)
    · obtain ⟨last, beyond, rest⟩ := ih (run.extend comment) (by omega) (by omega)
      exact ⟨last, by omega, rest⟩
    · exact ⟨number, by omega, inside, run, .inr comment⟩

/-- An annotation at or after a marker belongs to a block. -/
theorem AfterMarker.exists_isBlock (after : AfterMarker marker lines number)
    (keyword : LineIs hasKeyword lines number) :
    ∃ first last, IsBlock marker lines first last ∧ first ≤ number ∧ number ≤ last := by
  -- The block begins at the first of the marker lines from which the run reaches this line.
  have least := Nat.find_spec after
  have minimal : ∀ n < Nat.find after, ¬_ := fun n => Nat.find_min after
  generalize Nat.find after = first at least minimal
  obtain ⟨before, marked, run⟩ := least
  obtain ⟨last, beyond, inside, whole, closed⟩ := exists_runEnd run keyword.bounds.2
  refine ⟨first, last, ⟨marked.bounds.1, by omega, inside, whole, closed, marked, ?_,
    number, before, beyond, keyword⟩, before, beyond⟩
  intro n less early marker
  refine minimal n less ⟨by omega, marker, fun k lower upper => ?_⟩
  rcases Nat.lt_or_ge k first with left | right
  · exact early k lower left
  · exact run k right upper

theorem IsBlock.afterMarker {first last : Nat} (block : IsBlock marker lines first last)
    (lower : first ≤ number) (upper : number ≤ last) : AfterMarker marker lines number :=
  ⟨first, lower, block.marked, block.comments.sub (by omega) (by omega)⟩

/-- A line at or after a marker that no block contains has no field. -/
theorem ofLine_of_not_contains (after : AfterMarker marker lines number)
    (found : lineAt? lines number = some line)
    (outside : (Block.ofLines marker lines).any (·.contains number) = false) :
    Field.ofLine line number = .ok none := by
  refine Field.ofLine_of_not_hasKeyword (Bool.eq_false_iff.mpr fun keyword => ?_)
  have contained := any_contains_iff.mpr (after.exists_isBlock ((lineIs_of_lineAt? found).mpr keyword))
  rw [outside] at contained
  cases contained

end

namespace Note

variable {marker : Text} {lines : List Text} {notes : List Note}

def ofBlock (lines : List Text) (block : Block) : Except StatusTooLong Note := do
  return ⟨block, ← Field.ofBlock block lines⟩

theorem fields_mapM (lines : List Text) (blocks : List Block) :
    (blocks.mapM (ofBlock lines)).map (fun notes => notes.flatMap (·.fields)) =
      readAll (fun entry => Field.ofLine entry.1 entry.2) (blocks.flatMap (·.linesOf lines)) := by
  induction blocks with
  | nil => rfl
  | cons block rest ih =>
    have first : Field.ofBlock block lines =
        readAll (fun entry => Field.ofLine entry.1 entry.2) (block.linesOf lines) := rfl
    rw [List.mapM_cons, List.flatMap_cons, readAll_append, ← ih, ← first, ofBlock]
    cases Field.ofBlock block lines with
    | error error => rfl
    | ok fields => cases rest.mapM (ofBlock lines) <;> rfl

/-- The fields of a document are those of its lines at and after markers, and the first of these
lines that cannot be read is the one that the whole document fails on. -/
theorem fields_ofLines (marker : Text) (lines : List Text) :
    (Note.ofLines marker lines).map (fun notes => notes.flatMap (·.fields)) =
      readAll (fun entry => Field.ofLine entry.1 entry.2) (linesAfterMarker marker lines) := by
  have ascending : (Block.ofLines marker lines).Pairwise fun a b => a.last < b.first := by
    refine (Block.ofLines_ascending marker lines).imp fun {a b} before => ?_
    obtain ⟨-, gap, left, right, -⟩ := before
    omega
  have inBlocks : (numbered lines).filter (fun entry =>
      (Block.ofLines marker lines).any (·.contains entry.2)) =
      (linesAfterMarker marker lines).filter fun entry =>
        (Block.ofLines marker lines).any (·.contains entry.2) := by
    rw [linesAfterMarker, List.filter_filter]
    refine List.filter_congr fun entry _ => ?_
    cases contained : (Block.ofLines marker lines).any (·.contains entry.2) with
    | false => rfl
    | true =>
      obtain ⟨first, last, block, lower, upper⟩ := any_contains_iff.mp contained
      simp [block.afterMarker lower upper]
  have each : Note.ofLines marker lines = (Block.ofLines marker lines).mapM (ofBlock lines) := rfl
  rw [each, fields_mapM, flatMap_linesOf ascending, inBlocks]
  -- What is left out are lines after markers in no block.
  refine readAll_filter fun entry member outside => ?_
  obtain ⟨listed, after⟩ := List.mem_filter.mp member
  exact ofLine_of_not_contains (by simpa using after) (mem_numbered_iff.mp listed) outside

theorem fields_ascending (read : ofLines marker lines = .ok notes) :
    (notes.flatMap (·.fields)).Pairwise fun a b => a.line < b.line := by
  have all := fields_ofLines marker lines
  rw [read] at all
  exact pairwise_of_readAll ((numbered_ascending lines).filter _) all.symm

/-- A note has a block of the document and what is read from it. -/
theorem ofBlock_of_mem (read : Note.ofLines marker lines = .ok notes) {note : Note}
    (member : note ∈ notes) :
    note.block ∈ Block.ofLines marker lines ∧ Field.ofBlock note.block lines = .ok note.fields := by
  obtain ⟨block, found, made⟩ := (exists_of_mapM_ok read).2 note member
  cases fields : Field.ofBlock block lines with
  | error error => simp [fields, bind, Except.bind] at made
  | ok list =>
    obtain rfl : (⟨block, list⟩ : Note) = note := by
      simpa [fields, bind, Except.bind, pure, Except.pure] using made
    exact ⟨found, fields⟩

/-- A field of a note is read from a line of its block. -/
theorem exists_line_of_mem (read : Note.ofLines marker lines = .ok notes) {note : Note}
    (member : note ∈ notes) {field : Field} (inside : field ∈ note.fields) :
    ∃ line number, lineAt? lines number = some line ∧ note.block.contains number = true ∧
      Field.ofLine line number = .ok (some field) := by
  obtain ⟨⟨line, number⟩, place, made⟩ := mem_of_readAll (ofBlock_of_mem read member).2 inside
  obtain ⟨listed, contained⟩ := List.mem_filter.mp place
  exact ⟨line, number, mem_numbered_iff.mp listed, contained, made⟩

/-- The field of a line at or after a marker is in a note. -/
theorem exists_note_of_ofLine (read : Note.ofLines marker lines = .ok notes) {line : Text} {number : Nat}
    (after : AfterMarker marker lines number) (found : lineAt? lines number = some line) {field : Field}
    (made : Field.ofLine line number = .ok (some field)) : ∃ note ∈ notes, field ∈ note.fields := by
  have all := fields_ofLines marker lines
  rw [read] at all
  have listed : (line, number) ∈ linesAfterMarker marker lines :=
    List.mem_filter.mpr ⟨mem_numbered_iff.mpr found, by simpa using after⟩
  exact List.mem_flatMap.mp (mem_readAll all.symm listed made)

/-- Reading a document loses no field and invents none: its fields are those of the lines at and after
markers, each line once and in order. A line of these that is in no block has no field, and nothing is
read from a line outside all blocks. -/
theorem ofLines_complete (marker : Text) (lines : List Text) (notes : List Note)
    (read : Note.ofLines marker lines = .ok notes) :
    (∃ results,
      (linesAfterMarker marker lines).mapM (fun entry => Field.ofLine entry.1 entry.2) = .ok results ∧
        notes.flatMap (·.fields) = results.filterMap id) ∧
    (∀ entry ∈ linesAfterMarker marker lines,
      (∀ block ∈ Block.ofLines marker lines, block.contains entry.2 = false) →
        Field.ofLine entry.1 entry.2 = .ok none) ∧
    ∀ number : Int, (∀ block ∈ Block.ofLines marker lines, block.contains number = false) →
      ∀ note ∈ notes, ∀ field ∈ note.fields,
        field.line ≠ number ∧ ∀ reference ∈ field.references, reference.line ≠ number := by
  refine ⟨?_, ?_, ?_⟩
  · have all := fields_ofLines marker lines
    rw [read, readAll] at all
    cases results :
        (linesAfterMarker marker lines).mapM fun entry => Field.ofLine entry.1 entry.2 with
    | error error => simp [results, bind, Except.bind, Except.map] at all
    | ok found =>
      exact ⟨found, rfl, by simpa [results, bind, Except.bind, pure, Except.pure, Except.map] using all⟩
  · intro entry member outside
    obtain ⟨listed, after⟩ := List.mem_filter.mp member
    exact ofLine_of_not_contains (by simpa using after) (mem_numbered_iff.mp listed) (by simpa using outside)
  · intro number outside note member field inside
    obtain ⟨line, place, -, contained, made⟩ := exists_line_of_mem read member inside
    obtain ⟨starts, places⟩ := Field.isOn_of_ofLine made
    have other : (place : Int) ≠ number := by
      rintro rfl
      rw [outside note.block (ofBlock_of_mem read member).1] at contained
      cases contained
    exact ⟨starts ▸ other, fun reference member => places reference member ▸ other⟩

/-- A document with an annotation before the marker, a block, and a run of comments without one. -/
def smallLines : List Text :=
  ["// @Tags users", "// List godoc", "// @Router /users [get]", "// of the office", "func List()",
    "// Other godoc", "// @ nothing"].map String.toList

def smallNotes : List Note :=
  [⟨⟨2, 4⟩, [⟨3, .router "/users".toList ["get".toList], "/users [get]".toList, none, []⟩]⟩]

/-- Five of the seven lines stand at or after a marker, and three of them in the block. -/
theorem ofLines_complete_small :
    ((linesAfterMarker defaultMarker smallLines).map (·.2) = [2, 3, 4, 6, 7] ∧
      Note.ofLines defaultMarker smallLines = .ok smallNotes) ∧
    (∃ results, (linesAfterMarker defaultMarker smallLines).mapM
        (fun entry => Field.ofLine entry.1 entry.2) = .ok results ∧
      smallNotes.flatMap (·.fields) = results.filterMap id) ∧
    Field.ofLine "// @ nothing".toList 7 = .ok none := by
  have read : Note.ofLines defaultMarker smallLines = .ok smallNotes := by decide +kernel
  obtain ⟨all, unblocked, -⟩ := ofLines_complete defaultMarker smallLines smallNotes read
  exact ⟨⟨by decide +kernel, read⟩, all,
    unblocked ("// @ nothing".toList, 7) (by decide +kernel) (by decide +kernel)⟩

end Note

end ApiNotes
