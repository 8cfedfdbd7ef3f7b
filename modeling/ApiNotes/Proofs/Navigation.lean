import ApiNotes.Navigation.Chain
import ApiNotes.Proofs.Snapshots
import Mathlib.Data.List.Flatten
import Mathlib.Data.Option.Basic

/-!
# Where names lead

What is found without searching texts. The candidates for a type name in an index that reflects a
snapshot are exactly the declarations of that name (`Index.Reflects.mem_candidates_iff`), each once.
So a declaration that is found in the document or in the index is one of an indexed file, listed in the
table under its own name, and a type that is declared once is always found
(`Navigation.define?_declared`).
-/

namespace ApiNotes

namespace Text

variable {mark : Char} {text tail : Text}

theorem afterLast_of_not_mem (absent : mark ∉ text) : afterLast mark text = text := by
  have whole : text.reverse.takeWhile (· ≠ mark) = text.reverse := by
    rw [List.takeWhile_eq_self_iff]
    intro c member
    have other : c ≠ mark := fun same => absent (same ▸ List.mem_reverse.mp member)
    simpa using other
  rw [afterLast, whole, List.reverse_reverse]

theorem afterLast_append (absent : mark ∉ text) (lead : Text) :
    afterLast mark (lead ++ mark :: text) = text := by
  have reversed : (lead ++ mark :: text).reverse = text.reverse ++ mark :: lead.reverse := by simp
  have run : ∀ c ∈ text.reverse, decide (c ≠ mark) = true := by
    intro c member
    have other : c ≠ mark := fun same => absent (same ▸ List.mem_reverse.mp member)
    simpa using other
  rw [afterLast, reversed, List.takeWhile_append_of_pos run]
  simp

/-- What is after the last mark is all of the text or follows a mark. -/
theorem afterLast_cases (mark : Char) (text : Text) : mark ∉ afterLast mark text ∧
    (text = afterLast mark text ∨ ∃ above, text = above ++ mark :: afterLast mark text) := by
  by_cases marked : mark ∈ text.reverse
  · obtain ⟨back, front, split, absent⟩ := List.eq_append_cons_of_mem marked
    have parts : text = front.reverse ++ mark :: back.reverse := by
      rw [← List.reverse_reverse text, split]
      simp
    have last : mark ∉ back.reverse := by simpa using absent
    rw [parts, afterLast_append last]
    exact ⟨last, .inr ⟨front.reverse, rfl⟩⟩
  · have absent : mark ∉ text := by simpa using marked
    rw [afterLast_of_not_mem absent]
    exact ⟨absent, .inl rfl⟩

theorem afterLast_append_of_mem (marked : mark ∈ tail) (lead : Text) :
    afterLast mark (lead ++ tail) = afterLast mark tail := by
  obtain ⟨absent, whole | ⟨above, split⟩⟩ := afterLast_cases mark tail
  · exact absurd (whole ▸ marked) absent
  · conv => lhs; rw [split, ← List.append_assoc]
    exact afterLast_append absent _

/-- A text and an end of it have the same last part just if the end is marked itself, or is that part. -/
theorem afterLast_eq_iff_of_suffix (ending : tail <:+ text) : afterLast mark text = afterLast mark tail ↔
    tail = text ∨ mark ∈ tail ∨ mark :: tail <:+ text := by
  obtain ⟨lead, rfl⟩ := ending
  by_cases marked : mark ∈ tail
  · simp [marked, afterLast_append_of_mem marked]
  rw [afterLast_of_not_mem marked]
  constructor
  · intro same
    obtain ⟨-, whole | ⟨above, split⟩⟩ := afterLast_cases mark (lead ++ tail)
    · exact .inl (whole.trans same).symm
    · rw [same] at split
      exact .inr (.inr ⟨above, split.symm⟩)
  · rintro (whole | within | ⟨above, split⟩)
    · rw [← whole, afterLast_of_not_mem marked]
    · exact absurd within marked
    · rw [← split, afterLast_append marked]

end Text

/-- The last part of a qualified name is the name that was qualified. -/
theorem GoFile.typeNameOf_qualify (file : GoFile) {name : Text} (named : Text.IsWord name) :
    typeNameOf (file.qualify name) = name := by
  unfold typeNameOf GoFile.qualify
  cases file.package with
  | none => exact Text.afterLast_of_not_mem named.no_dot
  | some package => exact Text.afterLast_append named.no_dot package

/-- A place at which a file of the index declares a type of this name. -/
def Index.Declares (index : Index) (type : Text) (site : Site) : Prop :=
  ∃ file decl, index.files.get? site.file = some file ∧ decl ∈ file.types ∧ decl.name = type ∧
    site = file.site site.file decl

namespace Index.Reflects

variable {root : Root} {marker : Text} {snapshot : Snapshot} {index : Index} {type path : Text}
  {site : Site}

theorem sound (reflects : index.Reflects root marker snapshot) {file : GoFile}
    (found : index.files.get? path = some file) : file.Sound path := by
  have key := Table.mem_keys_of_get? found
  obtain ⟨text, held⟩ := Option.isSome_iff_exists.mp ((reflects.keys path).mp key)
  obtain ⟨read, same, made, -⟩ := reflects.files path text held
  rw [found] at same
  cases same
  exact GoFile.sound_of_ofSource made

/-- What the table lists under a name is declared by a file under that name. -/
theorem declares_of_listed (reflects : index.Reflects root marker snapshot) {key : Text}
    {sites : List Site} (held : index.types.get? key = some sites) (member : site ∈ sites) :
    site.name = key ∧ index.Declares (typeNameOf key) site := by
  obtain ⟨named, file, decl, found, inside, made⟩ := (reflects.listed key sites held).2 site member
  refine ⟨named, file, decl, found, inside, ?_, made⟩
  have word := ((reflects.sound found).types.2 decl inside).2
  have spelled : site.name = file.qualify decl.name := by
    rw [made]
    rfl
  rw [← named, spelled, file.typeNameOf_qualify word]

/-- The candidates for a type are the declarations of its name. -/
theorem mem_candidates_iff (reflects : index.Reflects root marker snapshot) :
    site ∈ Navigation.candidates index type ↔ index.Declares type site := by
  simp only [Navigation.candidates, List.mem_flatMap, List.mem_filter, decide_eq_true_eq]
  constructor
  · rintro ⟨⟨key, sites⟩, ⟨entry, rfl⟩, member⟩
    have held := (Table.get?_eq_some_iff_mem index.types reflects.names key sites).mpr entry
    exact (reflects.declares_of_listed held member).2
  · rintro ⟨file, decl, found, inside, rfl, made⟩
    obtain ⟨-, sites, held, member⟩ := reflects.declared site.file file decl found inside
    have word := ((reflects.sound found).types.2 decl inside).2
    exact ⟨(file.qualify decl.name, sites), ⟨Table.mem_of_get? held, file.typeNameOf_qualify word⟩,
      made ▸ member⟩

/-- Every declaration that the table lists is listed once. -/
theorem nodup_all (reflects : index.Reflects root marker snapshot) : index.types.all.Nodup := by
  rw [List.nodup_iff_count_le_one]
  intro site
  by_cases listed : site ∈ index.types.all
  · obtain ⟨⟨key, sites⟩, entry, member⟩ := List.mem_flatMap.mp listed
    have held := (Table.get?_eq_some_iff_mem index.types reflects.names key sites).mpr entry
    obtain ⟨-, file, decl, found, inside, made⟩ := (reflects.listed key sites held).2 site member
    have once := (reflects.declared site.file file decl found inside).1
    rw [← made] at once
    omega
  · rw [List.count_eq_zero_of_not_mem listed]
    omega

theorem nodup_candidates (reflects : index.Reflects root marker snapshot) (type : Text) :
    (Navigation.candidates index type).Nodup :=
  reflects.nodup_all.sublist (List.filter_sublist.flatMap _)

/-- A declaration is listed under its own name. -/
theorem listed_of_declares (reflects : index.Reflects root marker snapshot)
    (declares : index.Declares type site) :
    ∃ sites, index.types.get? site.name = some sites ∧ site ∈ sites := by
  obtain ⟨file, decl, found, inside, -, made⟩ := declares
  obtain ⟨-, sites, held, member⟩ := reflects.declared site.file file decl found inside
  have named : site.name = file.qualify decl.name := by
    rw [made]
    rfl
  exact ⟨sites, by rw [named, held], made ▸ member⟩

/-- A type that is declared once has one candidate. -/
theorem candidates_eq_singleton (reflects : index.Reflects root marker snapshot)
    (declares : index.Declares type site) (once : ∀ other, index.Declares type other → other = site) :
    Navigation.candidates index type = [site] := by
  have same : ∀ other, other ∈ Navigation.candidates index type ↔ other ∈ [site] := by
    intro other
    rw [reflects.mem_candidates_iff, List.mem_singleton]
    constructor
    · exact once other
    · rintro rfl
      exact declares
  have perm := (List.perm_ext_iff_of_nodup (reflects.nodup_candidates type) (List.nodup_singleton site)).mpr same
  exact List.perm_singleton.mp perm

end Index.Reflects

/-! ## The ways to look -/

namespace Go.TypeDecl

theorem mem_of_best? {decls : List TypeDecl} {best : TypeDecl} (found : best? decls = some best) :
    best ∈ decls := by
  -- The fold keeps the best so far, which is the first declaration or one that was passed.
  have kept : ∀ (more : List TypeDecl) (decl : TypeDecl),
      more.foldl (fun best other => if other.precedes best then other else best) decl ∈ decl :: more := by
    intro more
    induction more with
    | nil => simp
    | cons other more ih =>
      intro decl
      rw [List.foldl_cons]
      have := ih (if other.precedes decl then other else decl)
      split_ifs at this ⊢ <;> simp only [List.mem_cons] at this ⊢ <;> tauto
  cases decls with
  | nil => cases found
  | cons decl more =>
    obtain rfl := Option.some.inj found
    exact kept more decl

end Go.TypeDecl

namespace Navigation

variable {package : Option Text} {type : Text} {document : GoFile} {index : Index} {site : Site}

theorem exists_decl_of_inDocument? (found : inDocument? package type document = some site) :
    ∃ decl ∈ document.types, decl.name = type ∧ site = document.site document.name decl := by
  unfold inDocument? at found
  simp only at found
  split_ifs at found
  obtain ⟨decl, best, rfl⟩ := Option.map_eq_some_iff.mp found
  obtain ⟨inside, named⟩ := List.mem_filter.mp (Go.TypeDecl.mem_of_best? best)
  exact ⟨decl, inside, by simpa using named, rfl⟩

theorem declares_of_inDocument? {path : Text} (held : index.files.get? path = some document)
    (named : document.name = path) (found : inDocument? package type document = some site) :
    index.Declares type site := by
  obtain ⟨decl, inside, called, rfl⟩ := exists_decl_of_inDocument? found
  subst named
  exact ⟨document, decl, held, inside, called, rfl⟩

theorem mem_candidates_of_inIndex? (found : inIndex? index package type document = some site) :
    site ∈ candidates index type := by
  unfold inIndex? at found
  rcases (Option.orElse_eq_some _ _ _).mp found with named | ⟨-, single⟩
  · obtain ⟨package, -, chosen⟩ := Option.bind_eq_some_iff.mp named
    rcases (Option.orElse_eq_some _ _ _).mp chosen with imported | ⟨-, qualified⟩
    · obtain ⟨directory, -, first⟩ := Option.bind_eq_some_iff.mp imported
      exact List.mem_of_find?_eq_some first
    · exact List.mem_of_find?_eq_some qualified
  · split at single
    · rename_i only same
      rw [same]
      simpa using single.symm
    · cases single

/-- A single candidate is found whatever the package. -/
theorem inIndex?_of_single (single : candidates index type = [site]) (package : Option Text)
    (document : GoFile) : inIndex? index package type document = some site := by
  cases found : inIndex? index package type document with
  | some other =>
    have member := mem_candidates_of_inIndex? found
    rw [single, List.mem_singleton] at member
    rw [member]
  | none =>
    unfold inIndex? at found
    have nothing := ((Option.orElse_eq_none _ _).mp found).2
    rw [single] at nothing
    cases nothing

/-- In the style that looks in the index, the document comes first, then the index, then the texts. -/
theorem define?_index (disk : Disk) (place : Path) (index : Index) (name : Text) (document : GoFile) :
    define? (chain .index true) ⟨disk, place, some index⟩ name document =
      match inDocument? (splitName name).1 (splitName name).2 document with
      | some site => some ⟨site, .document⟩
      | none => match inIndex? index (splitName name).1 (splitName name).2 document with
        | some site => some ⟨site, .index⟩
        | none => (inText? disk place (splitName name).1 (splitName name).2).map (⟨·, .search⟩) := by
  unfold define? chain
  simp only [if_true, List.findSome?_cons, Resolver.find?, Option.bind_some, List.findSome?_nil]
  cases inDocument? (splitName name).1 (splitName name).2 document with
  | some site => rfl
  | none =>
    cases inIndex? index (splitName name).1 (splitName name).2 document with
    | some site => rfl
    | none => cases inText? disk place (splitName name).1 (splitName name).2 <;> rfl

/-- What is found without a search of the texts is found in the document or in the index. -/
theorem found_of_define? {disk : Disk} {place : Path} {name : Text} {resolver : Resolver}
    (found : define? (chain .index true) ⟨disk, place, some index⟩ name document = some ⟨site, resolver⟩)
    (known : resolver ≠ .search) :
    inDocument? (splitName name).1 (splitName name).2 document = some site ∨
      inIndex? index (splitName name).1 (splitName name).2 document = some site := by
  rw [define?_index] at found
  cases here : inDocument? (splitName name).1 (splitName name).2 document with
  | some other =>
    obtain ⟨rfl, -⟩ : other = site ∧ Resolver.document = resolver := by simpa [here] using found
    exact .inl rfl
  | none =>
    cases there : inIndex? index (splitName name).1 (splitName name).2 document with
    | some other =>
      obtain ⟨rfl, -⟩ : other = site ∧ Resolver.index = resolver := by simpa [here, there] using found
      exact .inr rfl
    | none =>
      obtain ⟨-, -, -, rfl⟩ : ∃ other, inText? disk place _ _ = some other ∧ other = site ∧
          Resolver.search = resolver := by simpa [here, there] using found
      exact absurd rfl known

/-- What is found in the document or in the index is a declaration of the type's name in an indexed
file, listed in the table under its own name. A type that the indexed files declare once is found in
one of these ways, whatever package the name and the document name. -/
theorem define?_declared (root : Root) (patterns excluded : List Text) (sizeLimit : Number.Given)
    (marker : Text) (calls : List (Disk × Update)) (index : Index)
    (reached : ((Tracked.start root patterns excluded sizeLimit marker).run calls).indexer.index =
      some index)
    (path : Text) (document : GoFile) (held : index.files.get? path = some document)
    (disk : Disk) (place : Path) (name : Text) :
    (∀ site resolver,
      define? (chain .index true) ⟨disk, place, some index⟩ name document = some ⟨site, resolver⟩ →
      resolver ≠ .search →
        index.Declares (splitName name).2 site ∧
          ∃ sites, index.types.get? site.name = some sites ∧ site ∈ sites) ∧
    ∀ site, index.Declares (splitName name).2 site →
      (∀ other, index.Declares (splitName name).2 other → other = site) →
      ∃ resolver, resolver ≠ .search ∧
        define? (chain .index true) ⟨disk, place, some index⟩ name document =
          some ⟨site, resolver⟩ := by
  have steady := (Tracked.steady_start root patterns excluded sizeLimit marker).run calls
  have reflects := steady.reflects reached
  have own : ∀ site, inDocument? (splitName name).1 (splitName name).2 document = some site →
      index.Declares (splitName name).2 site :=
    fun site found => declares_of_inDocument? held (reflects.sound held).name found
  constructor
  · intro site resolver found known
    have declares : index.Declares (splitName name).2 site := by
      rcases found_of_define? found known with here | there
      · exact own site here
      · exact reflects.mem_candidates_iff.mp (mem_candidates_of_inIndex? there)
    exact ⟨declares, reflects.listed_of_declares declares⟩
  · intro site declares once
    rw [define?_index]
    cases here : inDocument? (splitName name).1 (splitName name).2 document with
    | some other =>
      obtain rfl := once other (own other here)
      exact ⟨.document, by decide, rfl⟩
    | none =>
      have single := reflects.candidates_eq_singleton declares once
      rw [inIndex?_of_single single]
      exact ⟨.index, by decide, rfl⟩

/-- What is known of the one file of the small project. -/
def smallFile : GoFile :=
  ⟨"a.go".toList, ["package a".toList, "type T int".toList], some "a".toList, [],
    [⟨"T".toList, .named, 2, 2⟩], []⟩

/-- In the small project the type of the file is found under the name of another package. -/
theorem define?_declared_small : ∃ index,
    (Tracked.smallStart.run [(Tracked.smallDisk, .build)]).indexer.index = some index ∧
      index.files.get? "a.go".toList = some smallFile ∧
      ∃ resolver, resolver ≠ .search ∧
        define? (chain .index true) ⟨.empty, [], some index⟩ "b.T[c.U]".toList smallFile =
          some ⟨⟨"a.T".toList, "a.go".toList, 2, .declared .named⟩, resolver⟩ := by
  let index : Index := .ofFiles ⟨["p".toList], false⟩ [("a.go".toList, smallFile)]
  have reached : (Tracked.smallStart.run [(Tracked.smallDisk, .build)]).indexer.index = some index := rfl
  have held : index.files.get? "a.go".toList = some smallFile := rfl
  have split : (splitName "b.T[c.U]".toList).2 = "T".toList := by decide +kernel
  have all := define?_declared _ _ _ _ _ _ index reached _ _ held .empty [] "b.T[c.U]".toList
  rw [split] at all
  refine ⟨index, reached, held, all.2 _ ⟨smallFile, _, held, List.mem_singleton_self _, rfl, rfl⟩ ?_⟩
  rintro other ⟨file, decl, found, inside, -, made⟩
  have entry : other.file = "a.go".toList ∧ file = smallFile := by
    simpa [index, Index.ofFiles] using Table.mem_of_get? found
  obtain ⟨place, rfl⟩ := entry
  rw [made, List.mem_singleton.mp inside, place]
  rfl

end Navigation

end ApiNotes
