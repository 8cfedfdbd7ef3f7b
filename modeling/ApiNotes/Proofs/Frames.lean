import ApiNotes.Proofs.Histories
import ApiNotes.Proofs.Incremental
import ApiNotes.Proofs.TypeListings

/-!
# What an update leaves alone

An update of one file changes what is held under one path. Questions about another file, other than for a
definition, look at that file alone. The table of declarations is made anew, but what it says of a type is
a function of the declarations of that type in the order of their files (`Index.sitesNamed`), and a file
that comes or goes without one of them neither reorders nor drops any (`Index.sitesNamed_eq`). So the
answers about other files and about types that the file does not declare stay the same
(`Tracked.update_frame`).
-/

namespace ApiNotes

namespace Index

/-- The file of a path, where there is one, does not declare a type. -/
def LacksType (index : Index) (path type : Text) : Prop :=
  ∀ file ∈ index.files.get? path, ∀ decl ∈ file.types, decl.name ≠ type

instance (index : Index) (path type : Text) : Decidable (index.LacksType path type) :=
  inferInstanceAs (Decidable (∀ file ∈ index.files.get? path, ∀ decl ∈ file.types, decl.name ≠ type))

/-- Two indexes give the same answers about a type. -/
structure AlikeOnType (left right : Index) (type : Text) : Prop where
  found : ∀ package document,
    Navigation.inIndex? left package type document = Navigation.inIndex? right package type document
  listed : left.findType type = right.findType type
  qualified : ∀ package : Text, left.findType (package ++ '.' :: type) = right.findType (package ++ '.' :: type)

/-- Two indexes give the same answers about the file of a path. -/
structure AlikeOnFile (left right : Index) (path : Text) : Prop where
  file : left.file? path = right.file? path
  answers : ∀ config chain disk reading tool arguments, tool ∈ Tool.aboutFile →
    arguments.lookup "file_path".toList = some (.text path) →
      Project.answer ⟨left, config, chain⟩ disk reading tool arguments =
        Project.answer ⟨right, config, chain⟩ disk reading tool arguments
  endpoints : ∀ pattern, (left.listEndpoints pattern 0).filter (fun entry => entry.1 = path) =
    (right.listEndpoints pattern 0).filter fun entry => entry.1 = path

variable {root : Root} {marker path type : Text} {snapshot later : Snapshot} {files others : Table GoFile}
  {left right : Index}

/-! ## Types that a file does not declare -/

theorem filter_sites_eq_nil (read : ReadFrom marker snapshot files) (lacks : (ofFiles root files).LacksType path type)
    {file : GoFile} (held : files.get? path = some file) :
    (file.sites path).filter (fun site => typeNameOf site.name = type) = [] := by
  rw [GoFile.filter_sites (read.sound held), List.map_eq_nil_iff, List.filter_eq_nil_iff]
  intro decl inside named
  exact lacks file held decl inside (of_decide_eq_true named)

/-- Files that are the same but for one without declarations of a type hold the same declarations of it. -/
theorem sitesNamed_eq (read : ReadFrom marker snapshot files) (readLater : ReadFrom marker later others)
    (same : ∀ other, other ≠ path → files.get? other = others.get? other)
    (lacks : (ofFiles root files).LacksType path type) (lacksLater : (ofFiles root others).LacksType path type) :
    sitesNamed files type = sitesNamed others type := by
  rw [sitesNamed, sitesNamed, sites, sites, List.filter_flatMap, List.filter_flatMap]
  exact Table.flatMap_sorted_eq read.single readLater.single same
    (fun _ held => filter_sites_eq_nil read lacks held)
    fun _ held => filter_sites_eq_nil readLater lacksLater held

theorem alikeOnType (read : ReadFrom marker snapshot files) (readLater : ReadFrom marker later others)
    (same : sitesNamed files type = sitesNamed others type) (undotted : '.' ∉ type) :
    (ofFiles root files).AlikeOnType (ofFiles root others) type := by
  have sites : (ofFiles root files).sitesOf type = (ofFiles root others).sitesOf type := by
    rw [sitesOf_ofFiles root files undotted, same, sitesOf_ofFiles root others undotted]
  refine ⟨fun package document => ?_, ?_, fun package => ?_⟩
  · rw [Navigation.inIndex?, Navigation.inIndex?, candidates_ofFiles, same, candidates_ofFiles]
  · rw [findType_eq, findType_eq, sites]
  · rw [findType_eq, findType_eq, (ofFiles_reflects root read).sitesOf_qualify undotted,
      (ofFiles_reflects root readLater).sitesOf_qualify undotted, sites]

/-! ## Other files -/

/-- The routes of a file that a glob admits, with its path. -/
def routesOf (pattern : Option Text) (path : Text) (file : GoFile) : List (Text × Endpoint) :=
  (file.endpoints.filter fun endpoint => passes pattern endpoint.path).map (path, ·)

theorem listEndpoints_all (index : Index) (pattern : Option Text) :
    index.listEndpoints pattern 0 =
      index.files.sorted.flatMap fun entry => routesOf pattern entry.1 entry.2 := by
  rw [listEndpoints, upTo, if_neg (Int.lt_irrefl 0), allEndpoints, List.filter_flatMap]
  exact List.flatMap_congr fun entry _ => List.filter_map

/-- The routes of a path in a listing are those of its file. -/
theorem filter_listEndpoints {index : Index} (single : index.files.keys.Nodup) (pattern : Option Text) (path : Text) :
    (index.listEndpoints pattern 0).filter (fun route => route.1 = path) =
      (index.files.get? path).toList.flatMap (routesOf pattern path) := by
  have own : ∀ other file, ∀ route ∈ routesOf pattern other file, route.1 = other := by
    intro other file route member
    obtain ⟨endpoint, -, rfl⟩ := List.mem_map.mp member
    rfl
  rw [listEndpoints_all, List.filter_flatMap, ← flatMap_filter_of_nil fun entry : Text × GoFile => entry.1 = path,
    Table.filter_sorted_key single]
  · cases index.files.get? path with
    | none => rfl
    | some file =>
      simp only [Option.map_some, Option.toList_some, List.flatMap_cons, List.flatMap_nil, List.append_nil]
      exact List.filter_eq_self.mpr fun route member => decide_eq_true (own path file route member)
  · intro entry _ other
    refine List.filter_eq_nil_iff.mpr fun route member => ?_
    rw [own entry.1 entry.2 route member]
    simpa using other

theorem alikeOnFile (single : left.files.keys.Nodup) (otherSingle : right.files.keys.Nodup)
    (held : path ∈ left.files.keys) (same : left.files.get? path = right.files.get? path) :
    left.AlikeOnFile right path := by
  obtain ⟨file, found⟩ := Table.exists_of_mem_keys held
  have named : left.file? path = right.file? path := by
    rw [file?_of_get? found, file?_of_get? (same.symm.trans found)]
  refine ⟨named, fun config chain disk reading tool arguments asked given => ?_, fun pattern => ?_⟩
  · refine Arguments.Alike.answer_file ⟨fun _ _ => rfl, ?_⟩ config chain chain asked disk disk reading
    rw [given, Option.map_some, Option.map_some, Arguments.fileIn, Arguments.fileIn, named]
  · rw [filter_listEndpoints single, filter_listEndpoints otherSingle, same]

end Index

namespace Indexer

variable {indexer next : Indexer} {disk : Disk} {update : Update} {path : Text} {index : Index}

/-- The path from the root that an update of one file is for. -/
def touched? (indexer : Indexer) : Update → Option Text
  | .build => none
  | .refresh path => some (indexer.pathOf path)
  | .drop path => some path

/-- An update of one file changes what is held under its path and nothing else. -/
theorem get?_update (touched : indexer.touched? update = some path) (known : indexer.index = some index)
    (updated : indexer.update disk update = .ok next) :
    ∃ after, next.index = some after ∧
      ∀ other, other ≠ path → index.files.get? other = after.files.get? other := by
  cases update with
  | build => cases touched
  | refresh text =>
    obtain rfl : indexer.pathOf text = path := Option.some.inj touched
    obtain ⟨before, held, ⟨-, rfl⟩ | ⟨-, file, -, -, rfl⟩⟩ := refresh_ok updated
    all_goals obtain rfl := Option.some.inj (known.symm.trans held)
    · exact ⟨_, rfl, fun other apart => (Table.get?_erase_of_ne index.files apart).symm⟩
    · exact ⟨_, rfl, fun other apart => (Table.get?_put_of_ne index.files apart file).symm⟩
  | drop text =>
    obtain rfl : text = path := Option.some.inj touched
    obtain ⟨before, held, rfl⟩ := drop_ok updated
    obtain rfl := Option.some.inj (known.symm.trans held)
    exact ⟨_, rfl, fun other apart => (Table.get?_erase_of_ne index.files apart).symm⟩

end Indexer

namespace Tracked

/-- Whatever was called before, an update of one file that does not fail leaves the answers about types
that the file of its path declares neither before nor after it as they are, and the answers about all other
files. -/
theorem update_frame (root : Root) (patterns excluded : List Text) (sizeLimit : Number.Given)
    (marker : Text) (calls : List (Disk × Update)) (indexer next : Indexer) (index : Index)
    (reached : ((start root patterns excluded sizeLimit marker).run calls).indexer = indexer)
    (known : indexer.index = some index) (disk : Disk) (update : Update) (path : Text)
    (touched : indexer.touched? update = some path) (updated : indexer.update disk update = .ok next) :
    ∃ after, next.index = some after ∧
      (∀ type : Text, '.' ∉ type → index.LacksType path type → after.LacksType path type →
        index.AlikeOnType after type) ∧
      ∀ other ∈ index.files.keys, other ≠ path → index.AlikeOnFile after other := by
  subst reached
  have steady := (steady_start root patterns excluded sizeLimit marker).run calls
  obtain ⟨after, held, same⟩ := Indexer.get?_update touched known updated
  have stepped := steady.step (disk, update)
  rw [step, updated] at stepped
  obtain ⟨files, rfl, read⟩ := steady.index known
  obtain ⟨others, rfl, readLater⟩ := stepped.index held
  refine ⟨_, held, fun type undotted lacks lacksLater => ?_, fun other member apart => ?_⟩
  · exact Index.alikeOnType read readLater (Index.sitesNamed_eq read readLater same lacks lacksLater) undotted
  · exact Index.alikeOnFile read.single readLater.single member (same other apart)

/-- A second file comes to the small project; the type and the file that were there are answered as before,
while the type that it brings is found only now. -/
theorem update_frame_small : ∃ index next after,
    (smallStart.run [(smallDisk, .build)]).indexer.index = some index ∧
      (smallStart.run [(smallDisk, .build)]).indexer.update Indexer.grownDisk (.refresh "/p/b.go".toList) = .ok next ∧
      next.index = some after ∧ index.AlikeOnType after "T".toList ∧ index.AlikeOnFile after "a.go".toList ∧
      index.findType "U".toList = .error (.noSuchType "U".toList) ∧
      after.findType "U".toList = .ok [⟨"b.U".toList, "b.go".toList, 2, .declared .named⟩] := by
  obtain ⟨index, reached, held, lacks, absent⟩ : ∃ index,
      (smallStart.run [(smallDisk, .build)]).indexer.index = some index ∧ "a.go".toList ∈ index.files.keys ∧
        index.LacksType "b.go".toList "T".toList ∧
        index.findType "U".toList = .error (.noSuchType "U".toList) :=
    ⟨_, rfl, by decide +kernel, by decide +kernel, rfl⟩
  obtain ⟨next, second, updated, known, lacksLater, found⟩ : ∃ next second,
      (smallStart.run [(smallDisk, .build)]).indexer.update Indexer.grownDisk (.refresh "/p/b.go".toList) = .ok next ∧
        next.index = some second ∧ second.LacksType "b.go".toList "T".toList ∧
        second.findType "U".toList = .ok [⟨"b.U".toList, "b.go".toList, 2, .declared .named⟩] :=
    ⟨_, _, rfl, rfl, by decide +kernel, rfl⟩
  obtain ⟨after, afterKnown, types, files⟩ := update_frame _ _ _ _ _ _ _ next index rfl reached Indexer.grownDisk
    (.refresh "/p/b.go".toList) "b.go".toList (by decide +kernel) updated
  obtain rfl := Option.some.inj (known.symm.trans afterKnown)
  exact ⟨index, next, second, reached, updated, known, types _ (by decide) lacks lacksLater,
    files _ held (by decide), absent, found⟩

end Tracked

end ApiNotes
