import ApiNotes.Proofs.Extraction
import ApiNotes.Proofs.Snapshots
import ApiNotes.Query.Project

/-!
# The routes of a project

A listing of the routes goes through the files in order of their paths, through the notes of a file and
through the fields of a note, and has one entry for each router field on the way
(`Index.allEndpoints_forall₂`). Fields are read from ascending lines, so the entries of a file ascend by
line (`GoFile.endpoints_ascending`). A glob and a limit choose among the entries of the whole listing
(`Tracked.listEndpoints_complete`).
-/

namespace ApiNotes

/-- One route is listed before another: by the path of its file, or in one file by its line. -/
def Endpoint.ListedBefore (a b : Text × Endpoint) : Prop :=
  (a.1 ≠ b.1 ∧ Text.le a.1 b.1 = true) ∨ (a.1 = b.1 ∧ a.2.line < b.2.line)

/-- A router field with the path of its file and the note that it is in. -/
structure RouteOrigin where
  file : Text
  note : Note
  field : Field

namespace Note

variable {note : Note}

/-- What is said of the summary of a note: the value of its first summary field, or nothing if it has no
such field. -/
def Summarizes (note : Note) : Option Text → Prop
  | some text => ∃ before field after, note.fields = before ++ field :: after ∧
      field.keyword = .tag .summary ∧ field.value = text ∧ ∀ earlier ∈ before, earlier.keyword ≠ .tag .summary
  | none => ∀ field ∈ note.fields, field.keyword ≠ .tag .summary

def routers (note : Note) : List Field := note.fields.filter fun field => field.keyword = .router

theorem summarizes_summary? (note : Note) : note.Summarizes note.summary? := by
  unfold summary?
  cases found : note.fields.find? (·.keyword = .tag .summary) with
  | none =>
    intro field inside
    simpa using List.find?_eq_none.mp found field inside
  | some field =>
    obtain ⟨summary, before, after, split, earlier⟩ := List.find?_eq_some_iff_append.mp found
    refine ⟨before, field, after, split, of_decide_eq_true summary, rfl, fun other among => ?_⟩
    simpa using earlier other among

end Note

/-- A route is listed for a router field: it has the file, the line, the path and the methods, and the
summary of the note. -/
structure RouteOrigin.IsListedAs (origin : RouteOrigin) (route : Text × Endpoint) : Prop where
  file : route.1 = origin.file
  line : route.2.line = origin.field.line
  detail : origin.field.detail = .router route.2.path route.2.methods
  summary : origin.note.Summarizes route.2.summary

def GoFile.routeOrigins (path : Text) (file : GoFile) : List RouteOrigin :=
  file.notes.flatMap fun note => note.routers.map (RouteOrigin.mk path note)

def Index.routeOrigins (index : Index) : List RouteOrigin :=
  index.files.flatMap fun entry => entry.2.routeOrigins entry.1

/-! ## One entry for each router field -/

/-- What is chosen and then made stands beside what is chosen and made at once. -/
theorem forall₂_filterMap {α β γ : Type} {R : β → γ → Prop} {wanted : α → Bool} {f : α → β}
    {g : α → Option γ} {items : List α}
    (each : ∀ item ∈ items, (wanted item = true ∧ ∃ made, g item = some made ∧ R (f item) made) ∨
      wanted item = false ∧ g item = none) :
    List.Forall₂ R ((items.filter wanted).map f) (items.filterMap g) := by
  induction items with
  | nil => exact .nil
  | cons item rest ih =>
    have later := ih fun other member => each other (List.mem_cons_of_mem item member)
    obtain ⟨chosen, made, makes, related⟩ | ⟨left, nothing⟩ := each item List.mem_cons_self
    · rw [List.filter_cons_of_pos chosen, List.filterMap_cons_some makes]
      exact .cons related later
    · rw [List.filter_cons_of_neg (by simp [left]), List.filterMap_cons_none nothing]
      exact later

theorem Note.endpoints_forall₂ (path : Text) (note : Note) :
    List.Forall₂ RouteOrigin.IsListedAs (note.routers.map (RouteOrigin.mk path note))
      (note.endpoints.map (path, ·)) := by
  rw [Note.endpoints, List.map_filterMap]
  refine forall₂_filterMap fun field _ => ?_
  cases said : field.detail with
  | router route methods =>
    exact .inl ⟨by simp [Field.keyword, said, Detail.keyword], _, rfl, rfl, rfl, said,
      note.summarizes_summary?⟩
  | response _ _ _ | param _ _ _ _ | security _ | tag _ =>
    exact .inr ⟨by simp [Field.keyword, said, Detail.keyword], rfl⟩

theorem Index.allEndpoints_forall₂ (index : Index) : List.Forall₂ RouteOrigin.IsListedAs
    (index.files.sorted.flatMap fun entry => entry.2.routeOrigins entry.1) index.allEndpoints := by
  refine List.rel_flatMap (List.forall₂_same.mpr fun _ _ => rfl) ?_
  rintro entry _ rfl
  change List.Forall₂ _ _ (entry.2.endpoints.map (entry.1, ·))
  rw [GoFile.endpoints, List.map_flatMap]
  refine List.rel_flatMap (List.forall₂_same.mpr fun _ _ => rfl) ?_
  rintro note _ rfl
  exact note.endpoints_forall₂ entry.1

/-! ## The order of the entries -/

theorem Note.lines_routers (note : Note) : note.routers.map (·.line) = note.endpoints.map (·.line) := by
  have beside := (note.endpoints_forall₂ []).imp fun _ _ listed => listed.line.symm
  rw [List.forall₂_map_left_iff, List.forall₂_map_right_iff] at beside
  rw [← List.forall₂_eq_eq_eq, List.forall₂_map_left_iff, List.forall₂_map_right_iff]
  exact beside

namespace GoFile

/-- The routes of a file ascend by their lines. -/
theorem endpoints_ascending {file : GoFile} {marker : Text} (read : Note.ofLines marker file.lines = .ok file.notes) :
    file.endpoints.Pairwise fun a b => a.line < b.line := by
  have lines : file.endpoints.map (·.line) =
      ((file.notes.flatMap (·.fields)).filter fun field => field.keyword = .router).map (·.line) := by
    rw [endpoints, List.map_flatMap, List.filter_flatMap, List.map_flatMap]
    exact List.flatMap_congr fun note _ => note.lines_routers.symm
  have ascending : (file.endpoints.map (·.line)).Pairwise (· < ·) := by
    rw [lines, List.pairwise_map]
    exact (Note.fields_ascending read).filter _
  exact List.pairwise_map.mp ascending

end GoFile

namespace Index

theorem allEndpoints_pairwise {marker : Text} {snapshot : Snapshot} {files : Table GoFile} (root : Root)
    (read : ReadFrom marker snapshot files) :
    (ofFiles root files).allEndpoints.Pairwise Endpoint.ListedBefore := by
  refine List.pairwise_flatMap.mpr ⟨fun entry member => ?_, ?_⟩
  · obtain ⟨text, -, source⟩ := read.text_of_file ((Table.get?_eq_some_iff_mem files read.single _ _).mpr
      ((Table.sorted_perm files).mem_iff.mp member))
    refine List.pairwise_map.mpr ?_
    exact (entry.2.endpoints_ascending (GoFile.ofLines_of_ofSource source)).imp fun below => .inr ⟨rfl, below⟩
  · refine (Table.sorted_ascending read.single).imp fun before route inside other there => .inl ?_
    obtain ⟨endpoint, -, rfl⟩ := List.mem_map.mp inside
    obtain ⟨later, -, rfl⟩ := List.mem_map.mp there
    exact before

/-- A listing chooses by the glob first and by the number then. -/
theorem listEndpoints_eq (index : Index) (pattern : Option Text) (limit : Int) :
    index.listEndpoints pattern limit =
      let admitted := if pattern.getD [] = [] then index.allEndpoints
        else index.allEndpoints.filter fun route => (Glob.read (pattern.getD [])).admits route.2.path
      if 0 < limit then admitted.take limit.toNat else admitted := by
  refine congrArg (upTo limit) ?_
  rcases pattern with _ | _ | ⟨c, text⟩
  · exact (List.filter_eq_self.mpr fun _ _ => rfl).trans (if_pos rfl).symm
  · exact (List.filter_eq_self.mpr fun _ _ => rfl).trans (if_pos rfl).symm
  · exact (if_neg (List.cons_ne_nil c text)).symm

end Index

namespace Tracked

/-- Whatever was called before, the listing of all routes has one entry for each router field of each note
of each file, ordered by file and line; with a glob it has those of them whose path the glob admits, and
with a number above zero the first so many. -/
theorem listEndpoints_complete (root : Root) (patterns excluded : List Text) (sizeLimit : Number.Given)
    (marker : Text) (calls : List (Disk × Update)) (index : Index)
    (reached : ((start root patterns excluded sizeLimit marker).run calls).indexer.index = some index) :
    ∃ origins routes, origins.Perm index.routeOrigins ∧ List.Forall₂ RouteOrigin.IsListedAs origins routes ∧
      routes.Pairwise Endpoint.ListedBefore ∧ index.listEndpoints none 0 = routes ∧
      ∀ pattern limit, index.listEndpoints pattern limit =
        let admitted := if pattern.getD [] = [] then routes
          else routes.filter fun route => (Glob.read (pattern.getD [])).admits route.2.path
        if 0 < limit then admitted.take limit.toNat else admitted := by
  obtain ⟨files, rfl, read⟩ := ((steady_start root patterns excluded sizeLimit marker).run calls).index reached
  exact ⟨_, _, (Table.sorted_perm files).flatMap_right _, Index.allEndpoints_forall₂ (.ofFiles root files),
    Index.allEndpoints_pairwise root read, Index.listEndpoints_eq _ none 0, Index.listEndpoints_eq _⟩

/-- Two files with three routes, of which one is in a note with a summary. -/
def routedDisk : Disk where
  directories := [["p".toList]]
  files := [(["p".toList, "b.go".toList], ("// godoc\n// @Summary s\n// @Router /b [get]\n\n".toList ++
      "// godoc\n// @Router /c [get,put]\n".toList).map fun c => UInt8.ofNat c.toNat),
    (["p".toList, "a.go".toList], "// godoc\n// @Router /b [put]\n".toList.map fun c => UInt8.ofNat c.toNat)]

/-- The routes are listed file by file, each with the summary of its own note. -/
theorem listEndpoints_complete_routed : ∃ index a b c origins,
    (smallStart.run [(routedDisk, .build)]).indexer.index = some index ∧
      a = ("a.go".toList, ⟨"/b".toList, ["put".toList], 2, none⟩) ∧
      b = ("b.go".toList, ⟨"/b".toList, ["get".toList], 3, some "s".toList⟩) ∧
      c = ("b.go".toList, ⟨"/c".toList, ["get".toList, "put".toList], 6, none⟩) ∧
      origins.Perm index.routeOrigins ∧ List.Forall₂ RouteOrigin.IsListedAs origins [a, b, c] ∧
      [a, b, c].Pairwise Endpoint.ListedBefore ∧ index.listEndpoints none 0 = [a, b, c] ∧
      index.listEndpoints (some "/b".toList) 0 = [a, b] ∧ index.listEndpoints none 1 = [a] := by
  obtain ⟨index, reached⟩ := Option.isSome_iff_exists.mp
    (rfl : (smallStart.run [(routedDisk, .build)]).indexer.index.isSome = true)
  have listed : (smallStart.run [(routedDisk, .build)]).indexer.index.map (·.listEndpoints none 0) =
      some [("a.go".toList, ⟨"/b".toList, ["put".toList], 2, none⟩),
        ("b.go".toList, ⟨"/b".toList, ["get".toList], 3, some "s".toList⟩),
        ("b.go".toList, ⟨"/c".toList, ["get".toList, "put".toList], 6, none⟩)] := rfl
  rw [reached] at listed
  have listed : index.listEndpoints none 0 = _ := Option.some.inj listed
  obtain ⟨origins, routes, all, beside, ordered, whole, chosen⟩ := listEndpoints_complete _ _ _ _ _ _ index reached
  obtain rfl := whole.symm.trans listed
  exact ⟨index, _, _, _, origins, reached, rfl, rfl, rfl, all, beside, ordered, listed,
    chosen (some "/b".toList) 0, chosen none 1⟩

end Tracked

end ApiNotes
