import ApiNotes.Navigation.Chain
import ApiNotes.Proofs.Admission
import ApiNotes.Proofs.TypeGroups

/-!
# What a search of the text finds

The search looks for the first line on which the name of a type stands (`lineOf?_eq_some_iff`), in the
searched files one after another. It does not know of bodies: a line of a body may be the one that it
finds, and may begin or end a group for it. So it agrees with the reader of declarations on the lines where
both have seen the same group begin (`InStep`): there it finds what is declared
(`inText?_declared_iff`), and what is declared there is found (`inText?_of_declared`).
-/

namespace ApiNotes.Navigation

open Text Go

/-- A line on which the search takes the name of a type for its declaration. Every line counts. -/
def Mentions (type : Text) (lines : List Text) (number : Nat) : Prop :=
  ∃ line rest, lineAt? lines number = some line ∧ isGroupStart "type".toList line = false ∧
    NameStands (InGroup (fun _ => True) lines number) type line rest

/-- A group is open for the search just if one is open for the reader of declarations. -/
def InStep (lines : List Text) (number : Nat) : Prop :=
  InGroup (fun _ => True) lines number ↔ InGroup (¬InBody lines ·) lines number

instance (lines : List Text) (number : Nat) : Decidable (InStep lines number) :=
  inferInstanceAs (Decidable (_ ↔ _))

section

variable {type line rest : Text} {lines : List Text} {number : Nat} {grouped : Bool}

/-! ## One line -/

theorem standsAt_iff (word : IsWord type) (before : Option Char) (text : Text) :
    standsAt type before text = true ↔
      ∃ rest, (∀ c ∈ rest.head?, isWord c = false) ∧ text = type ++ rest := by
  have last : (type.getLast? <|> before).any isWord = true := by
    rw [List.getLast?_eq_some_getLast word.1]
    exact word.2 _ (List.getLast_mem word.1)
  unfold standsAt
  constructor
  · intro stands
    cases found : after? type text with
    | none => simp [found] at stands
    | some rest =>
      refine ⟨rest, ?_, eq_append_of_after? found⟩
      intro c first
      rw [found] at stands
      dsimp only at stands
      rw [isWordEdge, last, Option.mem_def.mp first] at stands
      simpa using stands
  · rintro ⟨rest, stops, rfl⟩
    rw [after?_append]
    dsimp only
    rw [isWordEdge, last]
    cases first : rest.head? with
    | none => rfl
    | some c => simp [stops c first]

theorem standsAfterBlanks_iff (word : IsWord type) (before : Option Char) (text : Text) :
    standsAfterBlanks type before text = true ↔
      ∃ indent rest, AllBlank indent ∧ (∀ c ∈ rest.head?, isWord c = false) ∧
        text = indent ++ (type ++ rest) := by
  induction text generalizing before with
  | nil =>
    rw [standsAfterBlanks, standsAt_iff word]
    constructor
    · rintro ⟨rest, -, same⟩
      exact absurd (List.append_eq_nil_iff.mp same.symm).1 word.1
    · rintro ⟨indent, rest, -, -, same⟩
      exact absurd (List.append_eq_nil_iff.mp (List.append_eq_nil_iff.mp same.symm).2).1 word.1
  | cons c text ih =>
    rw [standsAfterBlanks, Bool.or_eq_true, Bool.and_eq_true, standsAt_iff word, ih]
    constructor
    · rintro (⟨rest, stops, same⟩ | ⟨blank, indent, rest, more, stops, rfl⟩)
      · exact ⟨[], rest, List.forall_mem_nil _, stops, same⟩
      · exact ⟨c :: indent, rest, List.forall_mem_cons.mpr ⟨blank, more⟩, stops, rfl⟩
    · rintro ⟨indent, rest, blank, stops, same⟩
      cases indent with
      | nil => exact .inl ⟨rest, stops, same⟩
      | cons d indent =>
        obtain ⟨rfl, rfl⟩ := List.cons.inj same
        obtain ⟨here, more⟩ := List.forall_mem_cons.mp blank
        exact .inr ⟨here, indent, rest, more, stops, rfl⟩

theorem declares_iff (word : IsWord type) (line : Text) :
    declares type line = true ↔ ∃ indent gap rest, AllBlank indent ∧ gap ≠ [] ∧ AllBlank gap ∧
      (∀ c ∈ rest.head?, isWord c = false) ∧
        line = indent ++ ("type".toList ++ (gap ++ (type ++ rest))) := by
  unfold declares
  constructor
  · intro holds
    split at holds
    · rename_i c more found
      obtain ⟨blank, stands⟩ := Bool.and_eq_true_iff.mp holds
      obtain ⟨gap, rest, gapBlank, stops, rfl⟩ := (standsAfterBlanks_iff word _ _).mp stands
      obtain ⟨indent, indentBlank, split⟩ := exists_trimLeft line
      rw [eq_append_of_after? found] at split
      exact ⟨indent, c :: gap, rest, indentBlank, by simp, List.forall_mem_cons.mpr ⟨blank, gapBlank⟩,
        stops, split⟩
    · cases holds
  · rintro ⟨indent, gap, rest, indentBlank, apart, gapBlank, stops, rfl⟩
    obtain ⟨c, gap, rfl⟩ := List.exists_cons_of_ne_nil apart
    obtain ⟨blank, more⟩ := List.forall_mem_cons.mp gapBlank
    rw [trimLeft_word indentBlank isWord_type, after?_append]
    exact Bool.and_eq_true_iff.mpr
      ⟨blank, (standsAfterBlanks_iff word _ _).mpr ⟨gap, rest, more, stops, rfl⟩⟩

/-- The search tests whether the name stands on the line. -/
theorem stands_iff (word : IsWord type) (grouped : Bool) (line : Text) :
    (if grouped then standsAfterBlanks type none line else declares type line) = true ↔
      ∃ rest, NameStands (grouped = true) type line rest := by
  cases grouped with
  | true =>
    rw [if_pos rfl, standsAfterBlanks_iff word]
    constructor
    · rintro ⟨indent, rest, blank, stops, same⟩
      exact ⟨rest, word, stops, indent, blank, .inl ⟨rfl, same⟩⟩
    · rintro ⟨rest, -, stops, indent, blank, ⟨-, same⟩ | ⟨outside, -⟩⟩
      · exact ⟨indent, rest, blank, stops, same⟩
      · exact absurd rfl outside
  | false =>
    rw [if_neg Bool.false_ne_true, declares_iff word]
    constructor
    · rintro ⟨indent, gap, rest, indentBlank, apart, gapBlank, stops, same⟩
      exact ⟨rest, word, stops, indent, indentBlank,
        .inr ⟨Bool.false_ne_true, gap, apart, gapBlank, same⟩⟩
    · rintro ⟨rest, -, stops, indent, indentBlank, ⟨inside, -⟩ | ⟨-, gap, apart, gapBlank, same⟩⟩
      · exact absurd inside Bool.false_ne_true
      · exact ⟨indent, gap, rest, indentBlank, apart, gapBlank, stops, same⟩

/-! ## One text -/

/-- The search ends on a line that the name stands on. -/
theorem lineOfFrom_of_stands (plain : isGroupStart "type".toList line = false)
    (stands : NameStands (grouped = true) type line rest) (number : Nat) (others : List Text) :
    lineOfFrom type grouped number (line :: others) = some number := by
  have looks := (stands_iff stands.1 grouped line).mpr ⟨rest, stands⟩
  have opened := stands.isInner.1
  simp only [lineOfFrom, plain, opened, looks]
  rfl

/-- It passes over any other line. -/
theorem lineOfFrom_of_not_stands (word : IsWord type)
    (other : isGroupStart "type".toList line = false → ¬∃ rest, NameStands (grouped = true) type line rest)
    (number : Nat) (others : List Text) : lineOfFrom type grouped number (line :: others) =
      lineOfFrom type (groupedAfter grouped line) (number + 1) others := by
  by_cases starts : isGroupStart "type".toList line = true
  · have opened := isGroupEnd_eq_false_of_isGroupStart starts
    have after : groupedAfter grouped line = true := by
      cases grouped with
      | true => rw [groupedAfter, if_pos rfl, opened, Bool.not_false]
      | false => rw [groupedAfter, if_neg Bool.false_ne_true, starts]
    rw [lineOfFrom, if_pos starts, after]
  · simp only [Bool.not_eq_true] at starts
    have looks := (stands_iff word grouped line).not.mpr (other starts)
    rw [lineOfFrom, starts, if_neg Bool.false_ne_true]
    cases grouped with
    | true =>
      by_cases ends : isGroupEnd line = true
      · rw [if_pos (by simp [ends]), groupedAfter, ends]
        rfl
      · simp only [Bool.not_eq_true] at ends
        rw [if_neg (by simp [ends]), if_neg looks, groupedAfter, ends]
        rfl
    | false =>
      have after : groupedAfter false line = false := starts
      rw [if_neg (by simp), if_neg looks, after]

/-- The search goes on to the first line that mentions the type. -/
theorem lineOfFrom_eq_some_iff {others : List Text} (word : IsWord type) (left : lines.drop number = others)
    (group : grouped = true ↔ InGroup (fun _ => True) lines (number + 1)) (found : Nat) :
    lineOfFrom type grouped (number + 1) others = some found ↔
      number < found ∧ Mentions type lines found ∧
        ∀ earlier, number < earlier → earlier < found → ¬Mentions type lines earlier := by
  induction others generalizing number grouped with
  | nil =>
    have short : lines.length ≤ number := List.drop_eq_nil_iff.mp left
    rw [lineOfFrom]
    constructor
    · intro impossible
      cases impossible
    · rintro ⟨beyond, ⟨line, rest, there, -⟩, -⟩
      have inside : LineIs (fun _ => true) lines found := (lineIs_of_lineAt? there).mpr rfl
      have := inside.bounds
      omega
  | cons line others ih =>
    obtain ⟨here, later⟩ := lineAt?_of_drop left
    have mentions : Mentions type lines (number + 1) ↔ isGroupStart "type".toList line = false ∧
        ∃ rest, NameStands (grouped = true) type line rest := by
      rw [propext group]
      constructor
      · rintro ⟨other, rest, same, plain, stands⟩
        obtain rfl := Option.some.inj (here.symm.trans same)
        exact ⟨plain, rest, stands⟩
      · rintro ⟨plain, rest, stands⟩
        exact ⟨line, rest, here, plain, stands⟩
    by_cases mentioned : Mentions type lines (number + 1)
    · obtain ⟨plain, rest, stands⟩ := mentions.mp mentioned
      rw [lineOfFrom_of_stands plain stands, Option.some.injEq]
      constructor
      · rintro rfl
        refine ⟨by omega, mentioned, ?_⟩
        intro earlier lower upper
        omega
      · rintro ⟨beyond, -, first⟩
        by_contra other
        exact first (number + 1) (by omega) (by omega) mentioned
    · have passes := mentions.not.mp mentioned
      rw [lineOfFrom_of_not_stands word (fun plain stands => passes ⟨plain, stands⟩),
        ih later (groupedAfter_iff here trivial group)]
      constructor
      · rintro ⟨beyond, there, first⟩
        refine ⟨by omega, there, ?_⟩
        intro earlier lower upper
        rcases Nat.lt_or_ge (number + 1) earlier with after | same
        · exact first earlier after upper
        · obtain rfl : earlier = number + 1 := by omega
          exact mentioned
      · rintro ⟨beyond, there, first⟩
        have apart : found ≠ number + 1 := by
          rintro rfl
          exact mentioned there
        refine ⟨by omega, there, ?_⟩
        intro earlier lower upper
        exact first earlier (by omega) upper

theorem lineOf?_eq_some_iff (word : IsWord type) (source : Text) (found : Nat) :
    lineOf? type source = some found ↔ Mentions type (source.splitOn '\n') found ∧
      ∀ earlier < found, ¬Mentions type (source.splitOn '\n') earlier := by
  have none : ∀ lines, ¬Mentions type lines 0 := by
    rintro lines ⟨line, rest, there, -⟩
    cases there
  have start : false = true ↔ InGroup (fun _ => True) (source.splitOn '\n') (0 + 1) := by
    simp [not_inGroup_first]
  rw [lineOf?, lineOfFrom_eq_some_iff word List.drop_zero start]
  constructor
  · rintro ⟨-, there, first⟩
    refine ⟨there, ?_⟩
    intro earlier upper
    rcases Nat.eq_zero_or_pos earlier with rfl | positive
    · exact none _
    · exact first earlier positive upper
  · rintro ⟨there, first⟩
    refine ⟨?_, there, ?_⟩
    · rcases Nat.eq_zero_or_pos found with rfl | positive
      · exact absurd there (none _)
      · exact positive
    · intro earlier _ upper
      exact first earlier upper

theorem exists_lineOf?_iff (word : IsWord type) (source : Text) :
    (∃ found, lineOf? type source = some found) ↔
      ∃ number, Mentions type (source.splitOn '\n') number := by
  classical
  constructor
  · rintro ⟨found, read⟩
    exact ⟨found, ((lineOf?_eq_some_iff word source found).mp read).1⟩
  · intro somewhere
    refine ⟨Nat.find somewhere, (lineOf?_eq_some_iff word source _).mpr ⟨Nat.find_spec somewhere, ?_⟩⟩
    intro earlier before
    exact Nat.find_min somewhere before

/-! ## All files -/

theorem mem_preferring {directory : Text} {places : List Path} {place : Path} :
    place ∈ preferring directory places ↔ place ∈ places := by
  unfold preferring
  rw [List.mem_append, List.mem_filter, List.mem_filter]
  by_cases inside : place.dropLast.getLast?.getD [] = directory <;> simp [inside]

/-- The searched files are the Go files below the root whose names lead through no directory that is
left out. -/
theorem mem_searchedFiles_iff {disk : Disk} (tree : disk.IsTree) {root place : Path} :
    place ∈ searchedFiles disk root ↔ disk.isFile place = true ∧ ∃ above name,
      place = root ++ (above ++ [name]) ∧ ".go".toList <:+ name ∧
        ∀ part ∈ above, part ∉ unsearched := by
  have read : Glob.read "*.go".toList = .star :: ".go".toList.map .exactly := rfl
  have descends : PathPattern.Descends [.anyDepth, .named (.star :: ".go".toList.map .exactly)] := by
    intro name member
    simp at member
  have kept : ∀ names : List Text, (!names.any unsearched.contains) = true ↔
      ∀ part ∈ names, part ∉ unsearched := by simp
  rw [searchedFiles, (Ordered.sort_perm _ _).mem_iff, List.mem_map, read]
  simp only [List.mem_filter, kept]
  constructor
  · rintro ⟨spot, ⟨member, plain⟩, rfl⟩
    obtain ⟨file, names, place, fits⟩ :=
      (PathPattern.mem_files_iff tree descends).mp ⟨spot, member, rfl⟩
    obtain ⟨above, name, rfl, go⟩ := (PathPattern.fits_standard_iff names).mp fits
    have same : spot.names = above ++ [name] :=
      List.append_cancel_left ((PathPattern.place_eq_of_mem_files descends member).symm.trans place)
    rw [same, List.dropLast_concat] at plain
    exact ⟨file, above, name, place, go, plain⟩
  · rintro ⟨file, above, name, place, go, plain⟩
    obtain ⟨spot, member, rfl⟩ := (PathPattern.mem_files_iff tree descends).mpr
      ⟨file, above ++ [name], place, (PathPattern.fits_standard_iff _).mpr ⟨above, name, rfl, go⟩⟩
    have same : spot.names = above ++ [name] :=
      List.append_cancel_left ((PathPattern.place_eq_of_mem_files descends member).symm.trans place)
    refine ⟨spot, ⟨member, ?_⟩, rfl⟩
    rwa [same, List.dropLast_concat]

/-- What is found stands in a searched file. -/
theorem exists_of_inText? {disk : Disk} {root : Path} {package : Option Text} {site : Site}
    (found : inText? disk root package type = some site) :
    ∃ place ∈ searchedFiles disk root, ∃ text, disk.text? place = some text ∧
      site.file = Path.fromRoot root place ∧ lineOf? type text = some site.line := by
  unfold inText? at found
  obtain ⟨place, member, made⟩ := List.exists_of_findSome?_eq_some found
  simp only [bind, Option.bind_eq_some_iff] at made
  obtain ⟨text, read, line, looked, same⟩ := made
  obtain rfl := Option.some.inj same
  refine ⟨place, ?_, text, read, rfl, looked⟩
  split at member
  · exact mem_preferring.mp member
  · exact member

theorem exists_inText?_iff {disk : Disk} {root : Path} {package : Option Text} :
    (∃ site, inText? disk root package type = some site) ↔
      ∃ place ∈ searchedFiles disk root, ∃ text, disk.text? place = some text ∧
        ∃ found, lineOf? type text = some found := by
  constructor
  · rintro ⟨site, found⟩
    obtain ⟨place, member, text, read, -, looked⟩ := exists_of_inText? found
    exact ⟨place, member, text, read, site.line, looked⟩
  · rintro ⟨place, member, text, read, found, looked⟩
    rw [← Option.isSome_iff_exists]
    unfold inText?
    refine List.findSome?_isSome_iff.mpr ⟨place, ?_, ?_⟩
    · split
      · exact mem_preferring.mpr member
      · exact member
    · rw [read]
      simp [looked]

/-! ## Search and declarations -/

/-- The text can be read, and declares a type of that name on the line. -/
def DeclaredIn (source marker text type : Text) (number : Nat) : Prop :=
  ∃ file, GoFile.ofSource source marker text = .ok file ∧
    ∃ decl ∈ file.types, decl.name = type ∧ decl.first = number

theorem declaredIn_iff {source marker text : Text} : DeclaredIn source marker text type number ↔
    NoneTooLong (text.splitOn '\n') (AfterMarker marker (text.splitOn '\n')) ∧
      ∃ decl ∈ typesOf (text.splitOn '\n'), decl.name = type ∧ decl.first = number := by
  rw [← Note.exists_ofLines_iff_noneTooLong]
  unfold DeclaredIn GoFile.ofSource
  cases read : Note.ofLines marker (text.splitOn '\n') with
  | error error => simp [read, bind, Except.bind]
  | ok notes => simp [read, bind, Except.bind, pure, Except.pure]

/-- Where a group is open for one of two readers only, the name that stands on a line for both is the
keyword itself. -/
theorem eq_type_of_stands {inside outside : Prop} {tail : Text} (stands : NameStands inside type line rest)
    (other : NameStands outside type line tail) :
    (inside ↔ outside) ∧ rest = tail ∨ type = "type".toList := by
  obtain ⟨word, stops, indent, blank, here⟩ := stands
  obtain ⟨-, tailStops, margin, marginBlank, there⟩ := other
  rcases here with ⟨isInside, rfl⟩ | ⟨notInside, gap, apart, gapBlank, rfl⟩
  · rcases there with ⟨isOutside, same⟩ | ⟨-, gap, apart, gapBlank, same⟩
    · left
      have texts := congrArg trimLeft same
      rw [trimLeft_word blank word, trimLeft_word marginBlank word] at texts
      exact ⟨iff_of_true isInside isOutside, List.append_cancel_left texts⟩
    · right
      have texts := congrArg trimLeft same
      rw [trimLeft_word blank word, trimLeft_word marginBlank isWord_type] at texts
      have wordStops := stops_at_gap gapBlank apart (fun _ => isWord_of_isBlank) (type ++ tail)
      exact (word_append_inj word isWord_type stops wordStops texts).1
  · rcases there with ⟨-, same⟩ | ⟨notOutside, space, -, spaceBlank, same⟩
    · right
      have texts := congrArg trimLeft same
      rw [trimLeft_word blank isWord_type, trimLeft_word marginBlank word] at texts
      have wordStops := stops_at_gap gapBlank apart (fun _ => isWord_of_isBlank) (type ++ rest)
      exact (word_append_inj isWord_type word wordStops tailStops texts).1.symm
    · left
      have texts := congrArg trimLeft same
      rw [trimLeft_word blank isWord_type, trimLeft_word marginBlank isWord_type] at texts
      have names := congrArg trimLeft (List.append_cancel_left texts)
      rw [trimLeft_word gapBlank word, trimLeft_word spaceBlank word] at names
      exact ⟨iff_of_false notInside notOutside, List.append_cancel_left names⟩

/-- What makes a line that the search takes for a declaration one for the reader, where `rest` follows
the name on that line. -/
structure Agrees (marker : Text) (lines : List Text) (number : Nat) (rest : Text) : Prop where
  readable : NoneTooLong lines (AfterMarker marker lines)
  outside : ¬InBody lines number
  inStep : InStep lines number
  followed : ∃ c ∈ rest, isBlank c = false

/-- What the search finds is a line of a searched file on which the name stands. It is the first line of a
declaration of that name if both agree about the line, and only then unless the name is `type`. -/
theorem inText?_declared_iff {disk : Disk} {root : Path} {package : Option Text} {site : Site}
    (word : IsWord type) (found : inText? disk root package type = some site) :
    ∃ place ∈ searchedFiles disk root, ∃ text, disk.text? place = some text ∧
      site.file = Path.fromRoot root place ∧
      ∃ line rest, lineAt? (text.splitOn '\n') site.line = some line ∧
        NameStands (InGroup (fun _ => True) (text.splitOn '\n') site.line) type line rest ∧
        ∀ source marker,
          (Agrees marker (text.splitOn '\n') site.line rest →
            DeclaredIn source marker text type site.line) ∧
          (DeclaredIn source marker text type site.line →
            Agrees marker (text.splitOn '\n') site.line rest ∨ type = "type".toList) := by
  obtain ⟨place, member, text, read, named, looked⟩ := exists_of_inText? found
  obtain ⟨⟨line, rest, there, -, stands⟩, -⟩ := (lineOf?_eq_some_iff word text site.line).mp looked
  refine ⟨place, member, text, read, named, line, rest, there, stands, ?_⟩
  intro source marker
  rw [declaredIn_iff, exists_mem_typesOf_iff]
  constructor
  · intro agrees
    have same := stands
    rw [propext agrees.inStep] at same
    exact ⟨agrees.readable, agrees.outside, line, rest, there, same, agrees.followed⟩
  · rintro ⟨readable, outside, other, tail, here, declares, followed⟩
    obtain rfl := Option.some.inj (there.symm.trans here)
    rcases eq_type_of_stands stands declares with ⟨inStep, rfl⟩ | keyword
    · exact .inl ⟨readable, outside, inStep, followed⟩
    · exact .inr keyword

/-- The project of one Go file. -/
def oneFile (text : Text) : Disk where
  directories := [["p".toList]]
  files := [(["p".toList, "a.go".toList], text.map fun c => UInt8.ofNat c.toNat)]

/-- A group of a struct with a field and of one more type. -/
def groupText : Text :=
  "package a\n\ntype (\n\tBox struct \x7b\n\t\tUnit int\n\t\x7d\n\tT int\n)".toList

theorem text?_groupText : (oneFile groupText).text? ["p".toList, "a.go".toList] = some groupText := by
  decide +kernel

theorem declaredIn_groupText : DeclaredIn "a.go".toList defaultMarker groupText "T".toList 7 :=
  ⟨_, rfl, ⟨"T".toList, .named, 7, 7⟩, by decide +kernel, rfl, rfl⟩

/-- The search and the reader agree about the second type. -/
theorem inText?_declared_iff_small :
    inText? (oneFile groupText) ["p".toList] none "T".toList =
      some ⟨"T".toList, "a.go".toList, 7, .matched⟩ ∧
    ∃ rest, Agrees defaultMarker (groupText.splitOn '\n') 7 rest := by
  have word : IsWord "T".toList := ⟨by decide, List.all_eq_true.mp (by decide)⟩
  have found : inText? (oneFile groupText) ["p".toList] none "T".toList =
      some ⟨"T".toList, "a.go".toList, 7, .matched⟩ := by decide +kernel
  obtain ⟨place, member, text, read, -, line, rest, -, -, both⟩ := inText?_declared_iff word found
  have only : searchedFiles (oneFile groupText) ["p".toList] = [["p".toList, "a.go".toList]] := by
    decide +kernel
  rw [only, List.mem_singleton] at member
  rw [member, text?_groupText] at read
  obtain rfl := Option.some.inj read
  rcases (both "a.go".toList defaultMarker).2 declaredIn_groupText with agrees | keyword
  · exact ⟨found, rest, agrees⟩
  · exact absurd keyword (by decide)

/-- The field is found, and no type of that name is declared. -/
theorem inText?_field :
    inText? (oneFile groupText) ["p".toList] none "Unit".toList =
      some ⟨"Unit".toList, "a.go".toList, 5, .matched⟩ ∧
    ∀ number, ¬DeclaredIn "a.go".toList defaultMarker groupText "Unit".toList number := by
  refine ⟨by decide +kernel, ?_⟩
  rintro number ⟨file, read, decl, member, named, -⟩
  obtain rfl := Except.ok.inj read
  have types : typesOf (groupText.splitOn '\n') =
      [⟨"Box".toList, .struct, 4, 6⟩, ⟨"T".toList, .named, 7, 7⟩] := by decide +kernel
  rw [types] at member
  rcases List.mem_cons.mp member with rfl | later
  · exact absurd named (by decide)
  · obtain rfl := List.mem_singleton.mp later
    exact absurd named (by decide)

/-- The search comes last in every style. -/
theorem exists_define?_of_inText? {disk : Disk} {root : Path} {reference : Text}
    (found : ∃ site, inText? disk root (splitName reference).1 (splitName reference).2 = some site)
    (style : NavigationStyle) (indexed : Bool) (index : Option Index) (document : GoFile) :
    ∃ definition, define? (chain style indexed) ⟨disk, root, index⟩ reference document =
      some definition := by
  obtain ⟨site, made⟩ := found
  have last : Resolver.search ∈ chain style indexed := by
    cases style <;> cases indexed <;> decide
  rw [← Option.isSome_iff_exists]
  refine List.findSome?_isSome_iff.mpr ⟨.search, last, ?_⟩
  show ((inText? disk root (splitName reference).1 (splitName reference).2).map _).isSome = true
  rw [made]
  rfl

/-- A type that is declared in a searched file is found where both agree whether a group is open, unless the
line begins a group for the search. Then a reference to it gets an answer in every style. In general a
type is found just if some line of a searched file mentions it. -/
theorem inText?_of_declared {disk : Disk} (tree : disk.IsTree) {root above : Path} {name text : Text}
    (go : ".go".toList <:+ name) (searched : ∀ part ∈ above, part ∉ unsearched)
    (read : disk.text? (root ++ (above ++ [name])) = some text) {source marker : Text}
    (declared : DeclaredIn source marker text type number) :
    (InStep (text.splitOn '\n') number →
      ¬LineIs (isGroupStart "type".toList) (text.splitOn '\n') number →
        (∀ package, ∃ site, inText? disk root package type = some site) ∧
        ∀ style indexed index reference document, (splitName reference).2 = type →
          ∃ definition, define? (chain style indexed) ⟨disk, root, index⟩ reference document =
            some definition) ∧
    ∀ package, (∃ site, inText? disk root package type = some site) ↔
      ∃ place ∈ searchedFiles disk root, ∃ other, disk.text? place = some other ∧
        ∃ number, Mentions type (other.splitOn '\n') number := by
  obtain ⟨-, declares⟩ := declaredIn_iff.mp declared
  obtain ⟨-, line, rest, there, stands, -⟩ := exists_mem_typesOf_iff.mp declares
  have word := stands.1
  have mentioned : ∀ package, (∃ site, inText? disk root package type = some site) ↔ _ := fun _ =>
    exists_inText?_iff
  simp only [exists_lineOf?_iff word] at mentioned
  refine ⟨?_, mentioned⟩
  intro inStep plain
  have member : root ++ (above ++ [name]) ∈ searchedFiles disk root :=
    (mem_searchedFiles_iff tree).mpr ⟨Disk.isFile_of_text? read, above, name, rfl, go, searched⟩
  rw [lineIs_of_lineAt? there, Bool.not_eq_true] at plain
  rw [← propext inStep] at stands
  have always : ∀ package, ∃ site, inText? disk root package type = some site := by
    intro package
    exact (mentioned package).mpr ⟨_, member, text, read, number, line, rest, there, plain, stands⟩
  refine ⟨always, ?_⟩
  intro style indexed index reference document named
  exact exists_define?_of_inText? (named ▸ always (splitName reference).1) style indexed index document

/-- The second type of that group is found from any document. -/
theorem inText?_of_declared_small : (oneFile groupText).IsTree ∧
    DeclaredIn "a.go".toList defaultMarker groupText "T".toList 7 ∧
    ∃ definition, define? (chain .search false) ⟨oneFile groupText, ["p".toList], none⟩ "b.T[c.U]".toList
      ⟨"b.go".toList, [], none, [], [], []⟩ = some definition := by
  have tree : (oneFile groupText).IsTree := by decide
  have go : ".go".toList <:+ "a.go".toList := ⟨['a'], rfl⟩
  have inStep : InStep (groupText.splitOn '\n') 7 := by decide +kernel
  have plain : ¬LineIs (isGroupStart "type".toList) (groupText.splitOn '\n') 7 := by decide +kernel
  have known : (oneFile groupText).text? (["p".toList] ++ ([] ++ ["a.go".toList])) = some groupText :=
    text?_groupText
  have answers := ((inText?_of_declared tree go (List.forall_mem_nil _) known
    declaredIn_groupText).1 inStep plain).2
  exact ⟨tree, declaredIn_groupText, answers .search false none "b.T[c.U]".toList _ (by decide +kernel)⟩

/-- A group whose first type is a struct of a function with its parameters on lines of their own. -/
def shieldedText : Text :=
  "package a\n\ntype (\n\tA struct \x7b\n\t\tF func(\n\t\t\tint,\n\t\t) error\n\t\x7d\n\tB int\n)".toList

/-- The second type is declared, and not found: the parenthesis in the body ends the group. -/
theorem inText?_lost :
    DeclaredIn "a.go".toList defaultMarker shieldedText "B".toList 9 ∧
    (oneFile shieldedText).text? ["p".toList, "a.go".toList] = some shieldedText ∧
    inText? (oneFile shieldedText) ["p".toList] none "B".toList = none := by
  refine ⟨⟨_, rfl, ⟨"B".toList, .named, 9, 9⟩, by decide +kernel, rfl, rfl⟩, ?_, ?_⟩
  · decide +kernel
  · decide +kernel

end

end ApiNotes.Navigation
