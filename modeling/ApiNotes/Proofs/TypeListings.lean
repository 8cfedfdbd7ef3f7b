import ApiNotes.Proofs.Navigation
import ApiNotes.Query.Project

/-!
# Where a type is declared

The table of declarations is a grouping of the declarations of all files, so whatever is looked up in it
under the name of a type is a function of the declarations of that name (`Index.sitesNamed`). A listing of
a type gives each of them once, ordered by qualified name, file and line (`Tracked.findType_complete`).
-/

namespace ApiNotes

/-- One declaration is listed before another: by its qualified name, or under one name by its place. -/
def Site.ListedBefore (a b : Site) : Prop :=
  (a.name ≠ b.name ∧ Text.le a.name b.name = true) ∨ (a.name = b.name ∧ a.Before b)

/-- The declarations of a file whose qualified names end with a name are those of this name. -/
theorem GoFile.filter_sites {file : GoFile} {path : Text} (sound : file.Sound path) (name : Text) :
    (file.sites path).filter (fun site => typeNameOf site.name = name) =
      (file.types.filter (·.name = name)).map (file.site path) := by
  rw [sites, List.filter_map]
  refine congrArg _ (List.filter_congr fun decl declared => ?_)
  simp only [Function.comp_def, site, file.typeNameOf_qualify (sound.types.2 decl declared).2]

namespace Index

/-- The declarations of the types of a name, file by file. -/
def declarationsOf (index : Index) (name : Text) : List Site :=
  index.files.flatMap fun entry => (entry.2.types.filter (·.name = name)).map (entry.2.site entry.1)

/-- The declarations of the types of a name among those of all files. -/
def sitesNamed (files : Table GoFile) (name : Text) : List Site :=
  (sites files).filter fun site => typeNameOf site.name = name

variable {root : Root} {marker name : Text} {snapshot : Snapshot} {files : Table GoFile} {index : Index}

/-- The lists of a table under the names of one type are made of its declarations. -/
theorem filter_types (root : Root) (files : Table GoFile) (name : Text) :
    (ofFiles root files).types.filter (fun entry => typeNameOf entry.1 = name) =
      (sitesNamed files name).foldl TypeTable.add [] :=
  TypeTable.filter_foldl_add (sites files) [] fun key => typeNameOf key = name

theorem candidates_ofFiles (root : Root) (files : Table GoFile) (name : Text) :
    Navigation.candidates (ofFiles root files) name =
      TypeTable.all ((sitesNamed files name).foldl TypeTable.add []) := by
  rw [← filter_types root]
  rfl

/-! ## Listings -/

theorem sitesOf_of_undotted (index : Index) (undotted : '.' ∉ name) :
    index.sitesOf name = TypeTable.all (index.types.sorted.filter fun entry => typeNameOf entry.1 = name) := by
  unfold sitesOf
  rw [if_neg (by simpa using undotted)]
  rfl

theorem sitesOf_dotted (index : Index) (package name : Text) :
    index.sitesOf (package ++ '.' :: name) = (index.types.get? (package ++ '.' :: name)).getD [] := by
  unfold sitesOf
  rw [if_pos (by simp)]

/-- A listing of a type groups its declarations and puts the groups in order. -/
theorem sitesOf_ofFiles (root : Root) (files : Table GoFile) (undotted : '.' ∉ name) :
    (ofFiles root files).sitesOf name =
      TypeTable.all (Table.sorted ((sitesNamed files name).foldl TypeTable.add [])) := by
  have single : (ofFiles root files).types.keys.Nodup :=
    TypeTable.nodup_keys_foldl_add (sites files) [] (by simp [Table.keys])
  rw [sitesOf_of_undotted _ undotted, ← filter_types root, Table.sorted_filter single]

theorem sitesNamed_perm (root : Root) (read : ReadFrom marker snapshot files) (name : Text) :
    (sitesNamed files name).Perm ((ofFiles root files).declarationsOf name) := by
  rw [sitesNamed, sites, List.filter_flatMap]
  refine ((Table.sorted_perm files).flatMap_right _).trans (.of_eq (List.flatMap_congr fun entry member => ?_))
  exact GoFile.filter_sites (read.sound ((Table.get?_eq_some_iff_mem files read.single _ _).mpr member)) name

theorem sitesOf_perm (root : Root) (read : ReadFrom marker snapshot files) (undotted : '.' ∉ name) :
    ((ofFiles root files).sitesOf name).Perm ((ofFiles root files).declarationsOf name) := by
  rw [sitesOf_ofFiles root files undotted]
  have grouped := TypeTable.all_foldl_add_perm (sitesNamed files name) []
  exact ((Table.sorted_perm _).flatMap_right _).trans (grouped.trans (sitesNamed_perm root read name))

namespace Reflects

variable (reflects : index.Reflects root marker snapshot)
include reflects

theorem name_of_listed {entry : Text × List Site} (member : entry ∈ index.types) {site : Site}
    (inside : site ∈ entry.2) : site.name = entry.1 :=
  ((reflects.listed _ _ ((Table.get?_eq_some_iff_mem _ reflects.names _ _).mpr member)).2 site inside).1

theorem sitesOf_pairwise (undotted : '.' ∉ name) : (index.sitesOf name).Pairwise Site.ListedBefore := by
  have known : ∀ entry ∈ index.types.sorted, entry ∈ index.types :=
    fun entry => (Table.sorted_perm index.types).mem_iff.mp
  have groups : (index.types.sorted.filter fun entry => typeNameOf entry.1 = name).Pairwise
      fun a b => ∀ site ∈ a.2, ∀ other ∈ b.2, site.ListedBefore other := by
    refine ((Table.sorted_ascending reflects.names).imp_of_mem ?_).filter _
    intro a b first second before site inside other there
    rw [Site.ListedBefore, reflects.name_of_listed (known a first) inside,
      reflects.name_of_listed (known b second) there]
    exact .inl before
  rw [sitesOf_of_undotted index undotted, TypeTable.all, List.pairwise_flatMap]
  refine ⟨fun entry chosen => ?_, groups⟩
  have member := known entry (List.mem_of_mem_filter chosen)
  have held := (Table.get?_eq_some_iff_mem _ reflects.names entry.1 entry.2).mpr member
  refine (reflects.ordered _ _ held).imp_of_mem fun {a b} first second before => ?_
  exact .inr ⟨(reflects.name_of_listed member first).trans (reflects.name_of_listed member second).symm, before⟩

/-- Under a qualified name stand those declarations of the type that have this name. -/
theorem sitesOf_qualify (undotted : '.' ∉ name) (package : Text) :
    index.sitesOf (package ++ '.' :: name) =
      (index.sitesOf name).filter fun site => site.name = package ++ '.' :: name := by
  have last : typeNameOf (package ++ '.' :: name) = name := Text.afterLast_append undotted package
  rw [sitesOf_dotted, sitesOf_of_undotted index undotted, TypeTable.all, List.filter_flatMap]
  generalize package ++ '.' :: name = key at last
  -- Only the list under the name itself adds to the listing.
  have nothing : ∀ entry ∈ index.types.sorted, entry.1 ≠ key →
      entry.2.filter (fun site => site.name = key) = [] := by
    intro entry member other
    refine List.filter_eq_nil_iff.mpr fun site inside => ?_
    rw [reflects.name_of_listed ((Table.sorted_perm index.types).mem_iff.mp member) inside]
    simpa using other
  rw [flatMap_filter_of_nil fun entry : Text × List Site => typeNameOf entry.1 = name,
    ← flatMap_filter_of_nil fun entry : Text × List Site => entry.1 = key,
    Table.filter_sorted_key reflects.names]
  · cases held : index.types.get? key with
    | none => rfl
    | some sites =>
      have all : ∀ site ∈ sites, decide (site.name = key) = true :=
        fun site inside => decide_eq_true ((reflects.listed key sites held).2 site inside).1
      simp [List.filter_eq_self.mpr all]
  · intro entry member left
    exact nothing entry member (by simpa using left)
  · intro entry member left
    refine nothing entry member ?_
    rintro rfl
    simp [last] at left

end Reflects

theorem findType_eq (index : Index) (name : Text) :
    index.findType name =
      if index.sitesOf name = [] then .error (.noSuchType name) else .ok (index.sitesOf name) := by
  unfold findType
  split
  · next none => rw [if_pos none]
  · next sites some => rw [if_neg some]

end Index

namespace Tracked

/-- Whatever was called before, a name without a dot is answered by the declarations of the types of that
name, each once and in order, or by an error where there are none; and the name with a package before it by
those of them that have this qualified name, or by an error. -/
theorem findType_complete (root : Root) (patterns excluded : List Text) (sizeLimit : Number.Given)
    (marker : Text) (calls : List (Disk × Update)) (index : Index)
    (reached : ((start root patterns excluded sizeLimit marker).run calls).indexer.index = some index)
    (name : Text) (undotted : '.' ∉ name) :
    ∃ sites : List Site, sites.Perm (index.declarationsOf name) ∧ sites.Pairwise Site.ListedBefore ∧
      index.findType name = (if sites = [] then .error (.noSuchType name) else .ok sites) ∧
      ∀ package : Text, index.findType (package ++ '.' :: name) =
        let qualified := sites.filter fun site => site.name = package ++ '.' :: name
        if qualified = [] then .error (.noSuchType (package ++ '.' :: name)) else .ok qualified := by
  have steady := (steady_start root patterns excluded sizeLimit marker).run calls
  have reflects := steady.reflects reached
  refine ⟨index.sitesOf name, ?_, reflects.sitesOf_pairwise undotted, index.findType_eq name, fun package => ?_⟩
  · obtain ⟨files, rfl, read⟩ := steady.index reached
    exact Index.sitesOf_perm root read undotted
  · rw [index.findType_eq, reflects.sitesOf_qualify undotted]

/-- A type of one name in two packages and in a file without one. -/
def sharedDisk : Disk where
  directories := [["p".toList]]
  files := [(["p".toList, "a.go".toList], "package b\ntype T int".toList.map fun c => UInt8.ofNat c.toNat),
    (["p".toList, "b.go".toList], "package a\ntype T int".toList.map fun c => UInt8.ofNat c.toNat),
    (["p".toList, "c.go".toList], "type T int".toList.map fun c => UInt8.ofNat c.toNat)]

/-- The type is listed three times, and once under each qualified name. -/
theorem findType_complete_shared : ∃ index bare inA inB,
    (smallStart.run [(sharedDisk, .build)]).indexer.index = some index ∧
      [bare, inA, inB].map (·.name) = ["T", "a.T", "b.T"].map String.toList ∧
      [bare, inA, inB].Perm (index.declarationsOf "T".toList) ∧
      [bare, inA, inB].Pairwise Site.ListedBefore ∧
      index.findType "T".toList = .ok [bare, inA, inB] ∧ index.findType "a.T".toList = .ok [inA] ∧
      index.findType "c.T".toList = .error (.noSuchType "c.T".toList) := by
  obtain ⟨index, reached⟩ := Option.isSome_iff_exists.mp
    (rfl : (smallStart.run [(sharedDisk, .build)]).indexer.index.isSome = true)
  have listed : (smallStart.run [(sharedDisk, .build)]).indexer.index.map (·.findType "T".toList) =
      some (.ok [⟨"T".toList, "c.go".toList, 1, .declared .named⟩,
        ⟨"a.T".toList, "b.go".toList, 2, .declared .named⟩,
        ⟨"b.T".toList, "a.go".toList, 2, .declared .named⟩]) := rfl
  rw [reached] at listed
  have listed : index.findType "T".toList = _ := Option.some.inj listed
  obtain ⟨sites, all, ordered, answer, qualified⟩ :=
    findType_complete _ _ _ _ _ _ index reached "T".toList (by decide)
  have inA := qualified "a".toList
  have inC := qualified "c".toList
  rw [listed] at answer
  split_ifs at answer
  obtain rfl := Except.ok.inj answer
  exact ⟨index, _, _, _, reached, rfl, all, ordered, listed, inA, inC⟩

end Tracked

end ApiNotes
