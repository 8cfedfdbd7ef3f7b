import ApiNotes.Proofs.Imports

/-!
# Readers, turn by turn

The readers of declarations and of imports take turns, each from a cursor of its own (`typeTurn?`,
`importTurn?`). A turn passes one line, or all lines of the declaration that begins there; it goes forward
and never beyond the last line, whatever the lines are (`Advances`). So the turns come to an end (`Run`),
and what they find lies within the lines, in order and apart (`readers_advance`).
-/

namespace ApiNotes.Go

open Text

/-- Where a reader is: how many lines it has passed, and whether a group is open there. -/
structure Cursor where
  passed : Nat
  grouped : Bool

/-- One turn of a reader: what it finds, if anything, and where it goes on. -/
structure Turn (α : Type) where
  found : Option α
  next : Cursor

section

variable {α : Type} {lines : List Text} {turn? : Cursor → Option (Turn α)} {first last : α → Nat}
  {cursor : Cursor} {found : List α}

/-- From a cursor on, a reader takes turns until there is none left, and this is what it has found then. -/
inductive Run (turn? : Cursor → Option (Turn α)) : Cursor → List α → Prop
  | stop {cursor : Cursor} (ended : turn? cursor = none) : Run turn? cursor []
  | turn {cursor : Cursor} {turn : Turn α} {found : List α} (taken : turn? cursor = some turn)
      (later : Run turn? turn.next found) : Run turn? cursor (turn.found.toList ++ found)

/-- Each turn goes forward, at most to the end of the lines, and what it finds lies on the lines that it
passes. -/
structure Advances (lines : List Text) (turn? : Cursor → Option (Turn α)) (first last : α → Nat) : Prop where
  forward : ∀ cursor turn, turn? cursor = some turn →
    cursor.passed < turn.next.passed ∧ turn.next.passed ≤ lines.length
  placed : ∀ cursor turn, turn? cursor = some turn → ∀ item ∈ turn.found,
    cursor.passed < first item ∧ first item ≤ last item ∧ last item ≤ turn.next.passed

namespace Run

/-- What holds of all that a turn finds holds of all that a run finds. -/
theorem forall_mem (run : Run turn? cursor found) {p : α → Prop}
    (each : ∀ cursor turn, turn? cursor = some turn → ∀ item ∈ turn.found, p item) : ∀ item ∈ found, p item := by
  induction run with
  | stop => simp
  | turn taken later ih =>
    intro item member
    rcases List.mem_append.mp member with here | there
    · exact each _ _ taken item (Option.mem_toList.mp here)
    · exact ih item there

/-- What a run finds lies below its cursor, in order and apart. -/
theorem ascending (run : Run turn? cursor found) (advances : Advances lines turn? first last) :
    found.Pairwise (fun a b => last a < first b) ∧ ∀ item ∈ found, cursor.passed < first item := by
  induction run with
  | stop => simp
  | @turn cursor turn found taken later ih =>
    obtain ⟨apart, below⟩ := ih
    have forward := (advances.forward _ _ taken).1
    have placed := advances.placed _ _ taken
    refine ⟨List.pairwise_append.mpr ⟨?_, apart, ?_⟩, ?_⟩
    · cases turn.found <;> simp
    · intro item here other there
      have above := (placed item (Option.mem_toList.mp here)).2.2
      have beyond := below other there
      omega
    · intro item member
      rcases List.mem_append.mp member with here | there
      · exact (placed item (Option.mem_toList.mp here)).1
      · have beyond := below item there
        omega

end Run

end

/-! ## Declarations -/

/-- One turn of the reader of declarations. It passes the line, or the lines of the declaration on it. -/
def typeTurn? (lines : List Text) (cursor : Cursor) : Option (Turn TypeDecl) :=
  match lines.drop cursor.passed with
  | [] => none
  | line :: rest =>
    let decl? := declOn? cursor.grouped (cursor.passed + 1) line rest
    some ⟨decl?, decl?.elim (cursor.passed + 1) (·.last), groupedAfter cursor.grouped line⟩

/-- A declaration lies within the lines, on one line unless it is a struct or an interface, and its name
stands on the first of them. -/
structure TypeDecl.StandsIn (lines : List Text) (decl : TypeDecl) : Prop where
  positive : 1 ≤ decl.first
  ordered : decl.first ≤ decl.last
  inside : decl.last ≤ lines.length
  single : decl.kind = .synonym ∨ decl.kind = .named → decl.last = decl.first
  nonempty : decl.name ≠ []
  stands : ∃ line, lineAt? lines decl.first = some line ∧ decl.name <:+: line

section

variable {lines rest : List Text} {line : Text} {grouped : Bool} {decl : TypeDecl} {cursor : Cursor}
  {turn : Turn TypeDecl}

theorem length_of_drop {passed : Nat} (left : lines.drop passed = line :: rest) :
    lines.length = passed + 1 + rest.length := by
  have whole := congrArg List.length left
  rw [List.length_drop, List.length_cons] at whole
  omega

/-- What a turn of the reader of declarations is. -/
theorem typeTurn?_eq_some (taken : typeTurn? lines cursor = some turn) : ∃ line rest,
    lines.drop cursor.passed = line :: rest ∧ turn.found = declOn? cursor.grouped (cursor.passed + 1) line rest ∧
      turn.next.passed = turn.found.elim (cursor.passed + 1) (·.last) := by
  unfold typeTurn? at taken
  split at taken
  · cases taken
  · rename_i line rest left
    obtain rfl := Option.some.inj taken
    exact ⟨line, rest, left, rfl, rfl⟩

/-- A turn that finds a declaration goes on after its last line. -/
theorem declOn?_of_typeTurn? (taken : typeTurn? lines cursor = some turn) (member : decl ∈ turn.found) :
    ∃ line rest, lines.drop cursor.passed = line :: rest ∧
      declOn? cursor.grouped (cursor.passed + 1) line rest = some decl ∧ turn.next.passed = decl.last := by
  obtain ⟨line, rest, left, found, next⟩ := typeTurn?_eq_some taken
  have declared : turn.found = some decl := member
  rw [declared] at found next
  exact ⟨line, rest, left, found.symm, next⟩

theorem typeTurn?_advances (lines : List Text) : Advances lines (typeTurn? lines) (·.first) (·.last) where
  forward cursor turn taken := by
    cases found : turn.found with
    | none =>
      obtain ⟨line, rest, left, -, next⟩ := typeTurn?_eq_some taken
      have length := length_of_drop left
      rw [found, Option.elim_none] at next
      omega
    | some decl =>
      obtain ⟨line, rest, left, declared, next⟩ := declOn?_of_typeTurn? taken found
      have length := length_of_drop left
      have bounds := bounds_of_declOn? declared
      have inside := (last_of_declOn? declared).1
      omega
  placed cursor turn taken decl member := by
    obtain ⟨line, rest, -, declared, next⟩ := declOn?_of_typeTurn? taken member
    have bounds := bounds_of_declOn? declared
    omega

theorem standsIn_of_typeTurn? (taken : typeTurn? lines cursor = some turn) :
    ∀ decl ∈ turn.found, decl.StandsIn lines := by
  intro decl member
  obtain ⟨line, rest, left, declared, -⟩ := declOn?_of_typeTurn? taken member
  obtain ⟨first, ordered⟩ := bounds_of_declOn? declared
  obtain ⟨inside, single⟩ := last_of_declOn? declared
  obtain ⟨tail, stands, -⟩ := (exists_declOn?_iff _ _ _ _).mp ⟨decl, declared, rfl⟩
  have length := length_of_drop left
  exact {
    positive := by omega
    ordered := ordered
    inside := by omega
    single := single
    nonempty := stands.1.1
    stands := ⟨line, by rw [first]; exact (lineAt?_of_drop left).1, stands.isInfix⟩ }

/-- What is declared from a line on is found in the turn there and in those after it. -/
theorem typesFrom_turn {passed : Nat} (left : lines.drop passed = line :: rest)
    (taken : typeTurn? lines ⟨passed, grouped⟩ = some turn) : typesFrom grouped 0 (passed + 1) (line :: rest) =
      turn.found.toList ++ typesFrom turn.next.grouped 0 (turn.next.passed + 1) (lines.drop turn.next.passed) := by
  have inside := (typeTurn?_advances lines).forward _ _ taken
  have length := length_of_drop left
  have after := (lineAt?_of_drop left).2
  simp only [typeTurn?, left] at taken
  obtain rfl := Option.some.inj taken
  rw [typesFrom_cons]
  cases declared : declOn? grouped (passed + 1) line rest with
  | none => rw [Option.elim_none, Option.elim_none, after]
  | some decl =>
    obtain ⟨first, ordered⟩ := bounds_of_declOn? declared
    simp only [declared, Option.elim_some] at inside ⊢
    have passing : passed + 1 + (decl.last - decl.first) = decl.last := by omega
    rw [typesFrom_drop (by omega), ← after, List.drop_drop, passing, Nat.add_right_comm, passing]

/-- The turns from a cursor on find the declarations from its line on. -/
theorem run_typesFrom (lines : List Text) (cursor : Cursor) :
    Run (typeTurn? lines) cursor (typesFrom cursor.grouped 0 (cursor.passed + 1) (lines.drop cursor.passed)) := by
  -- With each turn fewer lines are left.
  induction left : lines.length - cursor.passed using Nat.strong_induction_on generalizing cursor with
  | _ more ih =>
    cases ahead : lines.drop cursor.passed with
    | nil => exact .stop (by simp only [typeTurn?, ahead])
    | cons line rest =>
      obtain ⟨turn, taken⟩ : ∃ turn, typeTurn? lines cursor = some turn := by
        simp only [typeTurn?, ahead, Option.some.injEq, exists_eq']
      have forward := (typeTurn?_advances lines).forward _ _ taken
      rw [typesFrom_turn ahead taken]
      exact .turn taken (ih _ (by omega) turn.next rfl)

end

/-! ## Imports -/

/-- One turn of the reader of imports. It passes the line. -/
def importTurn? (lines : List Text) (cursor : Cursor) : Option (Turn Import) :=
  match lines.drop cursor.passed with
  | [] => none
  | line :: _ => some ⟨importOn? cursor.grouped (cursor.passed + 1) line, cursor.passed + 1,
      importGroupAfter cursor.grouped (cursor.passed + 1) line⟩

/-- An import is one of the lines, and its path stands there. -/
structure Import.StandsIn (lines : List Text) (spec : Import) : Prop where
  positive : 1 ≤ spec.line
  inside : spec.line ≤ lines.length
  nonempty : spec.path ≠ []
  stands : ∃ line, lineAt? lines spec.line = some line ∧ spec.path <:+: line

section

variable {lines : List Text} {cursor : Cursor} {turn : Turn Import}

theorem importTurn?_eq_some (taken : importTurn? lines cursor = some turn) : ∃ line rest,
    lines.drop cursor.passed = line :: rest ∧ turn.found = importOn? cursor.grouped (cursor.passed + 1) line ∧
      turn.next.passed = cursor.passed + 1 := by
  unfold importTurn? at taken
  split at taken
  · cases taken
  · rename_i line rest left
    obtain rfl := Option.some.inj taken
    exact ⟨line, rest, left, rfl, rfl⟩

theorem importTurn?_advances (lines : List Text) : Advances lines (importTurn? lines) (·.line) (·.line) where
  forward cursor turn taken := by
    obtain ⟨line, rest, left, -, next⟩ := importTurn?_eq_some taken
    have length := length_of_drop left
    omega
  placed cursor turn taken spec member := by
    obtain ⟨line, rest, -, found, next⟩ := importTurn?_eq_some taken
    obtain ⟨text, -, read⟩ := exists_of_importOn? (found.symm.trans member)
    have here := importSpec?_line read
    omega

theorem standsIn_of_importTurn? (taken : importTurn? lines cursor = some turn) :
    ∀ spec ∈ turn.found, spec.StandsIn lines := by
  intro spec member
  obtain ⟨line, rest, left, found, -⟩ := importTurn?_eq_some taken
  obtain ⟨text, piece, read⟩ := exists_of_importOn? (found.symm.trans member)
  obtain ⟨nonempty, inside⟩ := importSpec?_piece read
  have here := importSpec?_line read
  have length := length_of_drop left
  exact {
    positive := by omega
    inside := by omega
    nonempty := nonempty
    stands := ⟨line, by rw [here]; exact (lineAt?_of_drop left).1, inside.trans piece⟩ }

/-- The turns from a cursor on find the imports from its line on. -/
theorem run_importsFrom (lines : List Text) (cursor : Cursor) :
    Run (importTurn? lines) cursor (importsFrom cursor.grouped (cursor.passed + 1) (lines.drop cursor.passed)) := by
  induction left : lines.drop cursor.passed generalizing cursor with
  | nil =>
    refine .stop ?_
    simp only [importTurn?, left]
  | cons line rest ih =>
    have taken : importTurn? lines cursor = some ⟨importOn? cursor.grouped (cursor.passed + 1) line,
        cursor.passed + 1, importGroupAfter cursor.grouped (cursor.passed + 1) line⟩ := by
      simp only [importTurn?, left]
    rw [importsFrom_cons]
    exact .turn taken (ih _ (lineAt?_of_drop left).2)

end

/-! ## All readers -/

/-- Whatever a source is, each turn of the readers of declarations and imports goes forward; the turns come to
an end and have found what is read from the source, and the scan for a closing brace comes to a line of the
source. Declarations lie within the lines, each after the end of the one before; imports lie on ascending lines;
and what a declaration is called, or an import leads to, stands on its line. -/
theorem readers_advance (source : Text) :
    let lines := source.splitOn '\n'
    (Advances lines (typeTurn? lines) (·.first) (·.last) ∧ Run (typeTurn? lines) ⟨0, false⟩ (typesOf lines)) ∧
    (Advances lines (importTurn? lines) (·.line) (·.line) ∧ Run (importTurn? lines) ⟨0, false⟩ (importsOf lines)) ∧
    (∀ first < lines.length, first + BraceScan.start.linesToClose (lines.drop first) < lines.length) ∧
    (typesOf lines).Pairwise (fun a b => a.last < b.first) ∧ (∀ decl ∈ typesOf lines, decl.StandsIn lines) ∧
    (importsOf lines).Pairwise (fun a b => a.line < b.line) ∧ (∀ spec ∈ importsOf lines, spec.StandsIn lines) := by
  intro lines
  have types : Run (typeTurn? lines) ⟨0, false⟩ (typesOf lines) := run_typesFrom lines ⟨0, false⟩
  have imports : Run (importTurn? lines) ⟨0, false⟩ (importsOf lines) := run_importsFrom lines ⟨0, false⟩
  have typesAdvance := typeTurn?_advances lines
  have importsAdvance := importTurn?_advances lines
  refine ⟨⟨typesAdvance, types⟩, ⟨importsAdvance, imports⟩, ?_, (types.ascending typesAdvance).1, ?_,
    (imports.ascending importsAdvance).1, ?_⟩
  · intro first inside
    have some : lines.drop first ≠ [] := by simpa using inside
    have scanned := BraceScan.start.linesToClose_lt some
    rw [List.length_drop] at scanned
    omega
  · exact types.forall_mem fun _ _ taken => standsIn_of_typeTurn? taken
  · exact imports.forall_mem fun _ _ taken => standsIn_of_importTurn? taken

/-- In a group and a body that are never closed, the declaration goes on to the last line. -/
example : typesOf (["type (", "A struct \x7b", "B int /*", "\x7d", "C int"].map String.toList) =
    [⟨['A'], .struct, 2, 5⟩] := by decide

end ApiNotes.Go
