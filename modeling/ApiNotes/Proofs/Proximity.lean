import ApiNotes.Proofs.Positions

/-!
# The nearest reference

Of the references of a row the one that is found at a column is the first of those nearest to it
(`Note.IsNearest`), as long as the column is inside it or it is within reach. The search stops at the first
reference that the column is in and keeps a running minimum before that; `Note.nearestFrom_cases` is the
invariant of that loop, and `Note.nearest?_isNearest` what it comes to.
-/

namespace ApiNotes

theorem Reference.distance_nonneg (reference : Reference) (column : Int) :
    0 ≤ reference.distance column := by
  simp only [distance, Int.cast_id]
  split_ifs <;> omega

namespace Note

/-- The first of the references that are nearest to a column: those before it are farther away, and those
after it are not nearer. -/
def IsNearest (references : List Reference) (column : Int) (reference : Reference) : Prop :=
  ∃ earlier later, references = earlier ++ reference :: later ∧
    (∀ other ∈ earlier, reference.distance column < other.distance column) ∧
    ∀ other ∈ later, reference.distance column ≤ other.distance column

namespace IsNearest

variable {references : List Reference} {column : Int} {first reference : Reference}

theorem mem (nearest : IsNearest references column reference) : reference ∈ references := by
  obtain ⟨earlier, later, rfl, -, -⟩ := nearest
  simp

theorem le (nearest : IsNearest references column reference) :
    ∀ other ∈ references, reference.distance column ≤ other.distance column := by
  obtain ⟨earlier, later, rfl, before, after⟩ := nearest
  intro other member
  rcases List.mem_append.mp member with inside | inside
  · exact Int.le_of_lt (before other inside)
  · rcases List.mem_cons.mp inside with rfl | inside
    · exact Int.le_refl _
    · exact after other inside

theorem head (least : ∀ other ∈ references, first.distance column ≤ other.distance column) :
    IsNearest (first :: references) column first :=
  ⟨[], references, rfl, by simp, least⟩

theorem cons (nearest : IsNearest references column reference)
    (farther : reference.distance column < first.distance column) :
    IsNearest (first :: references) column reference := by
  obtain ⟨earlier, later, rfl, before, after⟩ := nearest
  exact ⟨first :: earlier, later, rfl, List.forall_mem_cons.mpr ⟨farther, before⟩, after⟩

theorem unique {other : Reference} (nearest : IsNearest references column reference)
    (again : IsNearest references column other) : reference = other := by
  have below : reference.distance column ≤ other.distance column := nearest.le other again.mem
  have above : other.distance column ≤ reference.distance column := again.le reference nearest.mem
  obtain ⟨earlier, later, rfl, before, -⟩ := nearest
  obtain ⟨front, back, split, ahead, -⟩ := again
  -- Of two of them the one that comes first in the list would be farther away than the other.
  rcases List.append_eq_append_iff.mp split with ⟨between, rfl, rest⟩ | ⟨between, rfl, rest⟩
  · cases between with
    | nil => exact (List.cons.inj rest).1
    | cons next between =>
      obtain ⟨rfl, -⟩ := List.cons.inj rest
      have farther := ahead reference (by simp)
      omega
  · cases between with
    | nil => exact (List.cons.inj rest).1.symm
    | cons next between =>
      obtain ⟨rfl, -⟩ := List.cons.inj rest
      have farther := before other (by simp)
      omega

end IsNearest

/-- The search ends with the nearest reference, if the column is in it or it is closer than the bound; and
with what was closest before, if all references are at the bound or beyond. -/
theorem nearestFrom_cases (column bound : Int) (closest : Option Reference) (references : List Reference) :
    (∃ reference, nearestFrom column bound closest references = some reference ∧
      IsNearest references column reference ∧
      (reference.distance column = 0 ∨ reference.distance column < bound)) ∨
    (nearestFrom column bound closest references = closest ∧
      ∀ reference ∈ references, reference.distance column ≠ 0 ∧ bound ≤ reference.distance column) := by
  induction references generalizing bound closest with
  | nil => exact .inr ⟨rfl, by simp⟩
  | cons first later ih =>
    have positive := first.distance_nonneg column
    by_cases hit : first.distance column = 0
    · refine .inl ⟨first, by simp [nearestFrom, hit], .head fun other _ => ?_, .inl hit⟩
      have := other.distance_nonneg column
      omega
    · by_cases closer : first.distance column < bound
      · -- The bound is now the distance of the first reference.
        have step : nearestFrom column bound closest (first :: later) =
            nearestFrom column (first.distance column) (some first) later := by
          simp [nearestFrom, hit, closer]
        rw [step]
        rcases ih (first.distance column) (some first) with ⟨reference, found, nearest, near⟩ | ⟨found, far⟩
        · exact .inl ⟨reference, found, nearest.cons (by omega), by omega⟩
        · exact .inl ⟨first, found, .head fun other member => (far other member).2, .inr closer⟩
      · have step : nearestFrom column bound closest (first :: later) =
            nearestFrom column bound closest later := by
          simp [nearestFrom, hit, closer]
        rw [step]
        rcases ih bound closest with ⟨reference, found, nearest, near⟩ | ⟨found, far⟩
        · exact .inl ⟨reference, found, nearest.cons (by omega), near⟩
        · exact .inr ⟨found, List.forall_mem_cons.mpr ⟨⟨hit, by omega⟩, far⟩⟩

section

variable {notes : List Note} {row column reach : Int} {reference : Reference}

theorem nearest?_cases (notes : List Note) (row column reach : Int) :
    (∃ reference, nearest? notes row (Number.int column) (Number.int reach) = some reference ∧
      IsNearest (referencesAt notes row) column reference ∧
      (reference.distance column = 0 ∨ reference.distance column ≤ reach)) ∨
    (nearest? notes row (Number.int column) (Number.int reach) = none ∧
      ∀ reference ∈ referencesAt notes row,
        reference.distance column ≠ 0 ∧ reach < reference.distance column) := by
  have same : nearest? notes row (Number.int column) (Number.int reach) =
      nearestFrom column (reach + 1) none (referencesAt notes row) :=
    nearestOf_int (referencesAt notes row) column reach
  simp only [same, ← Int.lt_add_one_iff (b := reach), ← Int.add_one_le_iff (a := reach)]
  exact nearestFrom_cases column (reach + 1) none (referencesAt notes row)

theorem nearest?_eq_some_iff_isNearest :
    nearest? notes row (Number.int column) (Number.int reach) = some reference ↔
      IsNearest (referencesAt notes row) column reference ∧
        (reference.distance column = 0 ∨ reference.distance column ≤ reach) := by
  constructor
  · intro found
    rcases nearest?_cases notes row column reach with ⟨other, same, nearest⟩ | ⟨none, -⟩
    · obtain rfl := Option.some.inj (same.symm.trans found)
      exact nearest
    · rw [none] at found
      cases found
  · rintro ⟨nearest, near⟩
    rcases nearest?_cases notes row column reach with ⟨other, found, again, -⟩ | ⟨-, far⟩
    · rw [found, nearest.unique again]
    · have := far reference nearest.mem
      omega

theorem nearest?_eq_none_iff :
    nearest? notes row (Number.int column) (Number.int reach) = none ↔
      ∀ reference ∈ referencesAt notes row,
        reference.distance column ≠ 0 ∧ reach < reference.distance column := by
  constructor
  · intro none
    rcases nearest?_cases notes row column reach with ⟨other, found, -⟩ | ⟨-, far⟩
    · rw [none] at found
      cases found
    · exact far
  · intro far
    rcases nearest?_cases notes row column reach with ⟨other, -, nearest, near⟩ | ⟨none, -⟩
    · have := far other nearest.mem
      omega
    · exact none

end

/-- The reference that is found at a position is the first of the references of the row that are nearest to
the column, if the column is in it or it is within reach; otherwise, and where the row has no references,
none is found. So a longer reach finds the same reference, and one that the column is in is found whatever
the reach. -/
theorem nearest?_isNearest (notes : List Note) (row column : Int) :
    (∀ reach reference, nearest? notes row (Number.int column) (Number.int reach) = some reference ↔
      IsNearest (referencesAt notes row) column reference ∧
        (reference.distance column = 0 ∨ reference.distance column ≤ reach)) ∧
    (∀ reach, nearest? notes row (Number.int column) (Number.int reach) = none ↔
      ∀ reference ∈ referencesAt notes row,
        reference.distance column ≠ 0 ∧ reach < reference.distance column) ∧
    (∀ reach further reference, reach ≤ further →
      nearest? notes row (Number.int column) (Number.int reach) = some reference →
        nearest? notes row (Number.int column) (Number.int further) = some reference) ∧
    ∀ reference ∈ referencesAt notes row, reference.start ≤ column → column < reference.stop →
      ∃ hit, IsNearest (referencesAt notes row) column hit ∧ hit.start ≤ column ∧ column < hit.stop ∧
        ∀ reach, nearest? notes row (Number.int column) (Number.int reach) = some hit := by
  refine ⟨fun reach reference => nearest?_eq_some_iff_isNearest, fun reach => nearest?_eq_none_iff, ?_, ?_⟩
  · intro reach further reference beyond found
    obtain ⟨nearest, near⟩ := nearest?_eq_some_iff_isNearest.mp found
    exact nearest?_eq_some_iff_isNearest.mpr ⟨nearest, by omega⟩
  · intro reference member starts stops
    have inside : reference.distance column = 0 := Reference.distance_eq_zero_iff.mpr ⟨starts, stops⟩
    rcases nearest?_cases notes row column 0 with ⟨hit, -, nearest, -⟩ | ⟨-, far⟩
    · have closer := nearest.le reference member
      have here : hit.distance column = 0 := by
        have := hit.distance_nonneg column
        omega
      obtain ⟨left, right⟩ := Reference.distance_eq_zero_iff.mp here
      exact ⟨hit, nearest, left, right, fun reach => nearest?_eq_some_iff_isNearest.mpr ⟨nearest, .inl here⟩⟩
    · exact absurd inside (far reference member).1

/-- A reference that ends before it begins. -/
def reversed : Reference := ⟨2, 9, 4, "users.Key".toList, 0, .request⟩

/-- Two notes on one row with references that cross each other. -/
def crossed : List Note :=
  [⟨⟨1, 3⟩, [⟨2, .tag .summary, [], none, [reversed, ⟨2, 10, 13, "a.B".toList, 0, .response⟩]⟩]⟩,
    ⟨⟨2, 2⟩, [⟨2, .tag .tags, [], none, [⟨2, 0, 6, "users.Row".toList, 1, .response⟩]⟩]⟩]

/-- The first and the last reference are both two columns away from column 7, so the first is found there
as soon as two columns are in reach; the last one, which column 3 is in, is found from it at any reach. -/
theorem nearest?_isNearest_small :
    nearest? crossed 2 (Number.int 7) (Number.int 1) = none ∧
    (∀ reach, 2 ≤ reach → nearest? crossed 2 (Number.int 7) (Number.int reach) = some reversed) ∧
    ∀ reach, nearest? crossed 2 (Number.int 3) (Number.int reach) =
      some ⟨2, 0, 6, "users.Row".toList, 1, .response⟩ := by
  obtain ⟨-, unreached, further, -⟩ := nearest?_isNearest crossed 2 7
  obtain ⟨-, -, -, hits⟩ := nearest?_isNearest crossed 2 3
  refine ⟨(unreached 1).mpr (by decide +kernel), fun reach beyond => ?_, fun reach => ?_⟩
  · exact further 2 reach reversed beyond (by decide +kernel)
  · obtain ⟨hit, -, -, -, found⟩ :=
      hits ⟨2, 0, 6, "users.Row".toList, 1, .response⟩ (by decide +kernel) (by decide) (by decide)
    have here : nearest? crossed 2 (Number.int 3) (Number.int 0) =
        some ⟨2, 0, 6, "users.Row".toList, 1, .response⟩ := by decide +kernel
    rw [found reach, ← found 0, here]

end Note

end ApiNotes
