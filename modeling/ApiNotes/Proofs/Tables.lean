import ApiNotes.Index.Basic
import Mathlib.Data.List.Basic
import Mathlib.Data.List.Nodup
import Mathlib.Data.List.Perm.Basic

/-!
# Tables as maps

A table is a list, and what it holds under each key is all that most of it comes to. Two tables
without doubled keys that hold the same are permutations of each other
(`Table.perm_of_get?_eq`), and then they are the same once sorted (`Table.sorted_eq_of_perm`).
The table of declarations is a grouping: under a name it holds the declarations of that name as
they came (`TypeTable.get?_foldl_add`), and all of its lists together hold what was put in
(`TypeTable.all_foldl_add_perm`).
-/

namespace ApiNotes

namespace Text

theorem le_total (a b : Text) : (le a b || le b a) = true := by
  induction a generalizing b with
  | nil => simp [le]
  | cons c a ih =>
    cases b with
    | nil => simp [le]
    | cons d b =>
      by_cases same : c = d
      · subst same
        simpa [le] using ih b
      · have apart : c.toNat ≠ d.toNat := fun equal => same (Char.toNat_inj.mp equal)
        simp only [le, same, Ne.symm same, if_false, Bool.or_eq_true, decide_eq_true_eq]
        omega

theorem le_trans (a b c : Text) (ab : le a b = true) (bc : le b c = true) : le a c = true := by
  induction a generalizing b c with
  | nil => simp [le]
  | cons x a ih =>
    cases b with
    | nil => simp [le] at ab
    | cons y b =>
      cases c with
      | nil => simp [le] at bc
      | cons z c =>
        by_cases xy : x = y <;> by_cases yz : y = z
        · subst xy yz
          simp only [le, if_true] at ab bc ⊢
          exact ih b c ab bc
        · subst xy
          simpa [le, yz] using bc
        · subst yz
          simpa [le, xy] using ab
        · have first : x.toNat < y.toNat := by simpa [le, xy] using ab
          have second : y.toNat < z.toNat := by simpa [le, yz] using bc
          have apart : x ≠ z := by
            rintro rfl
            omega
          simp only [le, apart, if_false, decide_eq_true_eq]
          omega

theorem le_antisymm (a b : Text) (ab : le a b = true) (ba : le b a = true) : a = b := by
  induction a generalizing b with
  | nil => cases b with
    | nil => rfl
    | cons d b => simp [le] at ba
  | cons c a ih =>
    cases b with
    | nil => simp [le] at ab
    | cons d b =>
      by_cases same : c = d
      · subst same
        rw [ih b (by simpa [le] using ab) (by simpa [le] using ba)]
      · have first : c.toNat < d.toNat := by simpa [le, same] using ab
        have second : d.toNat < c.toNat := by simpa [le, Ne.symm same] using ba
        omega

/-- Sorting forgets the order in which texts came. -/
theorem sort_eq_of_perm {left right : List Text} (same : left.Perm right) :
    Ordered.sort le left = Ordered.sort le right := by
  refine List.Perm.eq_of_pairwise (fun a b _ _ => le_antisymm a b) ?_ ?_ ?_
  · exact Ordered.sort_pairwise le_total le_trans left
  · exact Ordered.sort_pairwise le_total le_trans right
  · exact (Ordered.sort_perm _ left).trans (same.trans (Ordered.sort_perm _ right).symm)

end Text

/-- Of items with keys of their own, one has the key of an item. -/
theorem filter_eq_singleton {α β : Type} [DecidableEq β] {key : α → β} {items : List α}
    (single : (items.map key).Nodup) {item : α} (member : item ∈ items) :
    items.filter (fun other => key other = key item) = [item] := by
  refine List.perm_singleton.mp ((List.perm_ext_iff_of_nodup (single.of_map.filter _)
    (List.nodup_singleton item)).mpr fun other => ?_)
  simp only [List.mem_filter, decide_eq_true_eq, List.mem_singleton]
  constructor
  · rintro ⟨inside, same⟩
    exact List.inj_on_of_nodup_map single inside member same
  · rintro rfl
    exact ⟨member, rfl⟩

/-- Items that add nothing to a listing can be left out. -/
theorem flatMap_filter_of_nil {α β : Type} {items : List α} (wanted : α → Bool) {f : α → List β}
    (nothing : ∀ item ∈ items, wanted item = false → f item = []) :
    (items.filter wanted).flatMap f = items.flatMap f := by
  induction items with
  | nil => rfl
  | cons item rest ih =>
    rw [List.flatMap_cons, ← ih fun other member => nothing other (List.mem_cons_of_mem item member)]
    by_cases kept : wanted item = true
    · rw [List.filter_cons_of_pos kept, List.flatMap_cons]
    · rw [List.filter_cons_of_neg kept, nothing item List.mem_cons_self (by simpa using kept), List.nil_append]

namespace Table

variable {α : Type}

@[simp] theorem get?_nil (key : Text) : get? ([] : Table α) key = none := rfl

theorem get?_cons (key other : Text) (value : α) (table : Table α) :
    get? ((key, value) :: table) other = if other = key then some value else get? table other := by
  by_cases same : other = key
  · simp [get?, same]
  · simp [get?, List.lookup_cons, same, beq_false_of_ne same]

theorem get?_alter (change : Option α → α) (key other : Text) (table : Table α) :
    get? (alter change key table) other =
      if other = key then some (change (get? table key)) else get? table other := by
  induction table with
  | nil => simp [alter, get?_cons]
  | cons entry rest ih =>
    obtain ⟨first, value⟩ := entry
    by_cases here : first = key
    · subst here
      by_cases same : other = first <;> simp [alter, get?_cons, same]
    · rw [alter, if_neg here, get?_cons, ih, get?_cons, get?_cons, if_neg (Ne.symm here)]
      by_cases same : other = first
      · subst same
        simp [here]
      · simp [same]

/-- Putting changes what is held under one key. -/
theorem get?_put (table : Table α) (key other : Text) (value : α) :
    get? (table.put key value) other = if other = key then some value else get? table other :=
  get?_alter _ key other table

/-- Erasing leaves nothing under one key and changes nothing else. -/
theorem get?_erase (table : Table α) (key other : Text) :
    get? (table.erase key) other = if other = key then none else get? table other := by
  induction table with
  | nil => simp [erase]
  | cons entry rest ih =>
    obtain ⟨first, value⟩ := entry
    by_cases here : first = key
    · subst here
      have dropped : erase ((first, value) :: rest) first = erase rest first := by simp [erase]
      rw [dropped, ih, get?_cons]
      by_cases same : other = first <;> simp [same]
    · have kept : erase ((first, value) :: rest) key = (first, value) :: erase rest key := by
        simp [erase, here]
      rw [kept, get?_cons, ih, get?_cons]
      by_cases same : other = first
      · subst same
        simp [here]
      · simp [same]

theorem get?_put_of_ne (table : Table α) {key other : Text} (apart : other ≠ key) (value : α) :
    get? (table.put key value) other = get? table other := by
  rw [get?_put, if_neg apart]

theorem get?_erase_of_ne (table : Table α) {key other : Text} (apart : other ≠ key) :
    get? (table.erase key) other = get? table other := by
  rw [get?_erase, if_neg apart]

theorem keys_alter (change : Option α → α) (key : Text) (table : Table α) :
    keys (alter change key table) = if key ∈ keys table then keys table else keys table ++ [key] := by
  induction table with
  | nil => simp [alter, keys]
  | cons entry rest ih =>
    obtain ⟨first, value⟩ := entry
    by_cases here : first = key
    · subst here
      simp [alter, keys]
    · have step : keys (alter change key ((first, value) :: rest)) =
          first :: keys (alter change key rest) := by simp [alter, here, keys]
      rw [step, ih]
      by_cases later : key ∈ keys rest <;> simp_all [keys, Ne.symm here]

theorem nodup_keys_alter (change : Option α → α) (key : Text) (table : Table α)
    (single : (keys table).Nodup) : (keys (alter change key table)).Nodup := by
  rw [keys_alter]
  split
  · exact single
  · rename_i absent
    rw [List.nodup_append]
    refine ⟨single, by simp, fun other member last found => ?_⟩
    rw [List.mem_singleton.mp found]
    rintro rfl
    exact absent member

theorem filter_alter (change : Option α → α) (key : Text) (table : Table α) (wanted : Text → Bool) :
    (alter change key table).filter (fun entry => wanted entry.1) =
      if wanted key then alter change key (table.filter fun entry => wanted entry.1)
      else table.filter fun entry => wanted entry.1 := by
  induction table with
  | nil => by_cases chosen : wanted key = true <;> simp [alter, chosen]
  | cons entry rest ih =>
    obtain ⟨first, value⟩ := entry
    by_cases here : first = key
    · subst here
      by_cases chosen : wanted first = true <;> simp [alter, chosen]
    · have step : alter change key ((first, value) :: rest) = (first, value) :: alter change key rest := by
        simp [alter, here]
      rw [step, List.filter_cons, List.filter_cons, ih]
      by_cases chosen : wanted first = true <;> by_cases other : wanted key = true <;>
        simp [alter, here, chosen, other]

theorem nodup_keys_put (table : Table α) (key : Text) (value : α) (single : (keys table).Nodup) :
    (keys (table.put key value)).Nodup :=
  nodup_keys_alter _ key table single

theorem nodup_keys_erase (table : Table α) (key : Text) (single : (keys table).Nodup) :
    (keys (table.erase key)).Nodup :=
  single.sublist (List.filter_sublist.map _)

theorem get?_eq_none_iff (table : Table α) (key : Text) : get? table key = none ↔ key ∉ keys table := by
  induction table with
  | nil => simp [keys]
  | cons entry rest ih =>
    obtain ⟨first, value⟩ := entry
    rw [get?_cons]
    by_cases same : key = first
    · simp [same, keys]
    · simp only [same, if_false, ih]
      simp [keys, same]

theorem mem_keys_put (table : Table α) (key other : Text) (value : α) :
    other ∈ keys (table.put key value) ↔ other = key ∨ other ∈ keys table := by
  rw [← not_iff_not, ← get?_eq_none_iff, get?_put, not_or, ← get?_eq_none_iff]
  by_cases same : other = key <;> simp [same]

theorem mem_keys_erase (table : Table α) (key other : Text) :
    other ∈ keys (table.erase key) ↔ other ≠ key ∧ other ∈ keys table := by
  rw [← not_iff_not, ← get?_eq_none_iff, get?_erase, not_and, ← get?_eq_none_iff]
  by_cases same : other = key <;> simp [same]

theorem mem_of_get? {table : Table α} {key : Text} {value : α} (found : get? table key = some value) :
    (key, value) ∈ table := by
  induction table with
  | nil => simp at found
  | cons entry rest ih =>
    obtain ⟨first, other⟩ := entry
    rw [get?_cons] at found
    by_cases same : key = first
    · subst same
      simp only [if_true, Option.some.injEq] at found
      simp [found]
    · exact List.mem_cons_of_mem _ (ih (by simpa [same] using found))

theorem mem_keys_of_get? {table : Table α} {key : Text} {value : α} (found : get? table key = some value) :
    key ∈ keys table :=
  List.mem_map.mpr ⟨_, mem_of_get? found, rfl⟩

theorem exists_of_mem_keys {table : Table α} {key : Text} (held : key ∈ keys table) :
    ∃ value, get? table key = some value := by
  refine Option.ne_none_iff_exists'.mp fun absent => ?_
  exact (get?_eq_none_iff table key).mp absent held

/-- Without doubled keys an entry is what the table holds under its key. -/
theorem get?_eq_some_iff_mem (table : Table α) (single : (keys table).Nodup) (key : Text)
    (value : α) : get? table key = some value ↔ (key, value) ∈ table := by
  refine ⟨mem_of_get?, fun member => ?_⟩
  induction table with
  | nil => simp at member
  | cons entry rest ih =>
    obtain ⟨first, other⟩ := entry
    have parts : first ∉ keys rest ∧ (keys rest).Nodup := List.nodup_cons.mp single
    rw [get?_cons]
    rcases List.mem_cons.mp member with here | later
    · obtain ⟨rfl, rfl⟩ := Prod.mk.inj here
      simp
    · have apart : key ≠ first := by
        rintro rfl
        exact parts.1 (List.mem_map.mpr ⟨(key, value), later, rfl⟩)
      rw [if_neg apart]
      exact ih parts.2 later

theorem nodup_of_nodup_keys {table : Table α} (single : (keys table).Nodup) : table.Nodup :=
  List.Nodup.of_map Prod.fst single

/-- Tables that hold the same under every key have the same entries, in some order. -/
theorem perm_of_get?_eq (left right : Table α) (leftSingle : (keys left).Nodup)
    (rightSingle : (keys right).Nodup) (same : ∀ key, get? left key = get? right key) :
    left.Perm right := by
  rw [List.perm_ext_iff_of_nodup (nodup_of_nodup_keys leftSingle) (nodup_of_nodup_keys rightSingle)]
  rintro ⟨key, value⟩
  rw [← get?_eq_some_iff_mem left leftSingle, ← get?_eq_some_iff_mem right rightSingle, same]

theorem sorted_perm (table : Table α) : table.sorted.Perm table := Ordered.sort_perm _ table

/-- The keys of a sorted table ascend. -/
theorem sorted_pairwise (table : Table α) :
    table.sorted.Pairwise fun a b => Text.le a.1 b.1 = true :=
  Ordered.sort_pairwise (fun a b => Text.le_total a.1 b.1)
    (fun a b c => Text.le_trans a.1 b.1 c.1) table

theorem sorted_ascending {table : Table α} (single : (keys table).Nodup) :
    table.sorted.Pairwise fun a b => a.1 ≠ b.1 ∧ Text.le a.1 b.1 = true := by
  have once : (keys table.sorted).Nodup := ((sorted_perm table).map _).nodup_iff.mpr single
  exact (List.pairwise_map.mp once).and (sorted_pairwise table)

/-- Only one order of a table is sorted. -/
theorem eq_sorted_of_perm {table other : Table α} (single : (keys table).Nodup) (same : other.Perm table)
    (ordered : other.Pairwise fun a b => Text.le a.1 b.1 = true) : other = table.sorted := by
  refine List.Perm.eq_of_pairwise ?_ ordered (sorted_pairwise table) (same.trans (sorted_perm table).symm)
  rintro ⟨key, value⟩ ⟨again, second⟩ inOther inSorted before after
  obtain rfl : key = again := Text.le_antisymm key again before after
  have first := (get?_eq_some_iff_mem table single key value).mpr (same.mem_iff.mp inOther)
  have also := (get?_eq_some_iff_mem table single key second).mpr ((sorted_perm table).mem_iff.mp inSorted)
  rw [Option.some.inj (first.symm.trans also)]

/-- Sorting forgets the order in which keys were put in. -/
theorem sorted_eq_of_perm {left right : Table α} (single : (keys left).Nodup)
    (same : left.Perm right) : left.sorted = right.sorted :=
  (eq_sorted_of_perm single ((sorted_perm right).trans same.symm) (sorted_pairwise right)).symm

/-- Entries are sorted among others as they are on their own. -/
theorem sorted_filter {table : Table α} (single : (keys table).Nodup) (wanted : Text × α → Bool) :
    sorted (table.filter wanted) = table.sorted.filter wanted :=
  (eq_sorted_of_perm (single.sublist (List.filter_sublist.map _)) ((sorted_perm table).filter wanted)
    ((sorted_pairwise table).sublist List.filter_sublist)).symm

theorem filter_sorted_key {table : Table α} (single : (keys table).Nodup) (key : Text) :
    table.sorted.filter (fun entry => entry.1 = key) = ((get? table key).map (key, ·)).toList := by
  cases held : get? table key with
  | none =>
    have absent := (get?_eq_none_iff table key).mp held
    refine List.filter_eq_nil_iff.mpr fun entry member here => absent ?_
    exact List.mem_map.mpr ⟨entry, (sorted_perm table).mem_iff.mp member, of_decide_eq_true here⟩
  | some value =>
    have once : (keys table.sorted).Nodup := ((sorted_perm table).map _).nodup_iff.mpr single
    exact filter_eq_singleton once ((sorted_perm table).mem_iff.mpr (mem_of_get? held))

theorem flatMap_sorted_erase {β : Type} {table : Table α} (single : (keys table).Nodup) {key : Text}
    {f : Text × α → List β} (nothing : ∀ value, get? table key = some value → f (key, value) = []) :
    (table.erase key).sorted.flatMap f = table.sorted.flatMap f := by
  rw [erase, sorted_filter single]
  refine flatMap_filter_of_nil _ fun entry member left => ?_
  obtain rfl : entry.1 = key := by simpa using left
  exact nothing entry.2 ((get?_eq_some_iff_mem table single _ _).mpr ((sorted_perm table).mem_iff.mp member))

/-- Tables that hold the same under all keys but one are listed alike, where neither adds anything to the
listing under that key. -/
theorem flatMap_sorted_eq {β : Type} {left right : Table α} (single : (keys left).Nodup)
    (otherSingle : (keys right).Nodup) {key : Text}
    (same : ∀ other, other ≠ key → get? left other = get? right other) {f : Text × α → List β}
    (nothing : ∀ value, get? left key = some value → f (key, value) = [])
    (nothingElse : ∀ value, get? right key = some value → f (key, value) = []) :
    left.sorted.flatMap f = right.sorted.flatMap f := by
  have rest : (left.erase key).Perm (right.erase key) := by
    refine perm_of_get?_eq _ _ (nodup_keys_erase left key single) (nodup_keys_erase right key otherSingle) ?_
    intro other
    by_cases here : other = key
    · rw [get?_erase, get?_erase, if_pos here, if_pos here]
    · rw [get?_erase_of_ne left here, get?_erase_of_ne right here, same other here]
  rw [← flatMap_sorted_erase single nothing, ← flatMap_sorted_erase otherSingle nothingElse,
    sorted_eq_of_perm (nodup_keys_erase left key single) rest]

end Table

/-- All declarations of a table, list by list. -/
def TypeTable.all (table : TypeTable) : List Site := table.flatMap (·.2)

namespace TypeTable

/-- Declarations added one by one are found under their names, after those that were there. -/
theorem get?_foldl_add_from (sites : List Site) (table : TypeTable) (key : Text) :
    Table.get? (sites.foldl add table) key =
      if sites.filter (·.name = key) = [] then Table.get? table key
      else some ((Table.get? table key).getD [] ++ sites.filter (·.name = key)) := by
  induction sites generalizing table with
  | nil => simp
  | cons site rest ih =>
    rw [List.foldl_cons, ih, add, Table.get?_alter]
    by_cases named : site.name = key
    · subst named
      by_cases last : rest.filter (·.name = site.name) = [] <;> simp [last]
    · simp [named, Ne.symm named]

/-- A table made of declarations holds under a name the declarations of that name, as they
came, and no list under a name that none of them has. -/
theorem get?_foldl_add (sites : List Site) (key : Text) :
    Table.get? (sites.foldl add []) key =
      if sites.filter (·.name = key) = [] then none else some (sites.filter (·.name = key)) := by
  rw [get?_foldl_add_from]
  simp

/-- The declarations of some names are grouped among others as they are on their own. -/
theorem filter_foldl_add (sites : List Site) (table : TypeTable) (wanted : Text → Bool) :
    (sites.foldl add table).filter (fun entry => wanted entry.1) =
      (sites.filter fun site => wanted site.name).foldl add (table.filter fun entry => wanted entry.1) := by
  induction sites generalizing table with
  | nil => rfl
  | cons site rest ih =>
    rw [List.foldl_cons, ih, add, Table.filter_alter, List.filter_cons]
    split_ifs <;> rfl

theorem all_add_perm (table : TypeTable) (site : Site) : (table.add site).all.Perm (site :: table.all) := by
  induction table with
  | nil => simp [add, Table.alter, all]
  | cons entry rest ih =>
    obtain ⟨name, sites⟩ := entry
    by_cases here : name = site.name
    · have grown : add ((name, sites) :: rest) site = (name, sites ++ [site]) :: rest := by
        simp [add, Table.alter, here]
      simp only [grown, all, List.flatMap_cons, List.append_assoc, List.singleton_append]
      exact List.perm_middle
    · have kept : add ((name, sites) :: rest) site = (name, sites) :: add rest site := by
        simp [add, Table.alter, here]
      simp only [kept, all, List.flatMap_cons] at ih ⊢
      exact (ih.append_left sites).trans List.perm_middle

/-- Grouping neither loses nor doubles a declaration. -/
theorem all_foldl_add_perm (sites : List Site) (table : TypeTable) :
    (sites.foldl add table).all.Perm (table.all ++ sites) := by
  induction sites generalizing table with
  | nil => simp
  | cons site rest ih =>
    rw [List.foldl_cons]
    refine (ih (table.add site)).trans (((all_add_perm table site).append_right rest).trans ?_)
    exact List.perm_middle.symm

theorem nodup_keys_foldl_add (sites : List Site) (table : TypeTable)
    (single : (Table.keys table).Nodup) : (Table.keys (sites.foldl add table)).Nodup := by
  induction sites generalizing table with
  | nil => exact single
  | cons site rest ih => exact ih _ (Table.nodup_keys_alter _ site.name table single)

end TypeTable

end ApiNotes
