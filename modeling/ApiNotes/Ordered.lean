/-!
# Lists in order

Sorting by a comparison: every item goes in front of the first one that it may precede, so
that items which may precede each other stay in the order in which they came.
-/

namespace ApiNotes

namespace Ordered

variable {α : Type}

/-- The list with an item in front of the first one that it may precede. -/
def insert (le : α → α → Bool) (item : α) : List α → List α
  | [] => [item]
  | other :: rest =>
    if le item other then item :: other :: rest else other :: insert le item rest

/-- The items in order, those that may precede each other as they came. -/
def sort (le : α → α → Bool) (items : List α) : List α := items.foldr (insert le) []

theorem insert_perm (le : α → α → Bool) (item : α) (items : List α) :
    (insert le item items).Perm (item :: items) := by
  fun_induction insert le item items with
  | case1 => rfl
  | case2 => rfl
  | case3 other rest _ ih => exact (ih.cons other).trans (.swap item other rest)

theorem sort_perm (le : α → α → Bool) (items : List α) : (sort le items).Perm items := by
  induction items with
  | nil => rfl
  | cons item rest ih => exact (insert_perm le item (sort le rest)).trans (ih.cons item)

/-- An item put into a list in order leaves it in order. -/
theorem insert_pairwise {le : α → α → Bool} (total : ∀ a b, le a b || le b a)
    (trans : ∀ a b c, le a b → le b c → le a c) (item : α) {items : List α}
    (sorted : items.Pairwise (le · ·)) : (insert le item items).Pairwise (le · ·) := by
  fun_induction insert le item items with
  | case1 => simp
  | case2 other rest first =>
    refine List.pairwise_cons.mpr ⟨fun later member => ?_, sorted⟩
    rcases List.mem_cons.mp member with rfl | inside
    · exact first
    · exact trans _ _ _ first ((List.pairwise_cons.mp sorted).1 later inside)
  | case3 other rest first ih =>
    have parts := List.pairwise_cons.mp sorted
    refine List.pairwise_cons.mpr ⟨fun later member => ?_, ih parts.2⟩
    rcases List.mem_cons.mp ((insert_perm le item rest).mem_iff.mp member) with rfl | inside
    · simpa [first] using total later other
    · exact parts.1 later inside

/-- A comparison of any two items that carries over from pair to pair puts them in order. -/
theorem sort_pairwise {le : α → α → Bool} (total : ∀ a b, le a b || le b a)
    (trans : ∀ a b c, le a b → le b c → le a c) (items : List α) :
    (sort le items).Pairwise (le · ·) := by
  induction items with
  | nil => exact .nil
  | cons item rest ih => exact insert_pairwise total trans item ih

theorem insert_append {le : α → α → Bool} {item : α} {others : List α}
    (early : ∀ other ∈ others, le item other = true) (items : List α) :
    insert le item (items ++ others) = insert le item items ++ others := by
  induction items with
  | nil =>
    cases others with
    | nil => rfl
    | cons other rest => simp [insert, early other (by simp)]
  | cons first rest ih =>
    rw [List.cons_append, insert, insert]
    split
    · rfl
    · rw [ih, List.cons_append]

/-- Items that may precede all others are sorted on their own. -/
theorem sort_append {le : α → α → Bool} {items others : List α}
    (apart : ∀ item ∈ items, ∀ other ∈ others, le item other = true) :
    sort le (items ++ others) = sort le items ++ sort le others := by
  induction items with
  | nil => rfl
  | cons item rest ih =>
    have early : ∀ other ∈ sort le others, le item other = true := by
      intro other member
      exact apart item (by simp) other ((sort_perm le others).mem_iff.mp member)
    have later : sort le (rest ++ others) = sort le rest ++ sort le others :=
      ih fun item member => apart item (by simp [member])
    show insert le item (sort le (rest ++ others)) = _
    rw [later, insert_append early]
    rfl

/-- What leaves the comparison as it is may come before or after sorting. -/
theorem sort_map {β : Type} {le : α → α → Bool} {image : β → β → Bool} {f : α → β}
    (same : ∀ a b, image (f a) (f b) = le a b) (items : List α) :
    sort image (items.map f) = (sort le items).map f := by
  have step : ∀ item items, insert image (f item) (items.map f) = (insert le item items).map f := by
    intro item items
    induction items with
    | nil => rfl
    | cons other rest ih =>
      rw [List.map_cons, insert, insert, same]
      split
      · rfl
      · rw [ih, List.map_cons]
  induction items with
  | nil => rfl
  | cons item rest ih =>
    show insert image (f item) (sort image (rest.map f)) = _
    rw [ih, step]
    rfl

end Ordered

end ApiNotes
