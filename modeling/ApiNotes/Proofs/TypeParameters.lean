import ApiNotes.Proofs.Locality
import ApiNotes.Proofs.TypeGroups

/-!
# Type parameters

A list of type parameters in brackets may follow the name of a struct or an interface. What is read of the
source stays the same just if the text after the first closing bracket in the list, if it has one, begins with
the word for the type, and no brace in the list stands before a body of several lines
(`Site.types_kept_iff`). A declaration is read apart from the lines above it, which are read alike with
the list and without it (`exists_readAbove`).
-/

namespace ApiNotes.Go

open Text

/-! ## Lists of type parameters -/

instance (c : Char) : Decidable (IsSign c) := inferInstanceAs (Decidable (c ∈ _))

/-- What does not stand in a list of type parameters, or stands there in pairs. -/
def listMarks : List Char := ['[', ']', '{', '}', '"', '\x60', '/', '\n']

/-- A text of one line, without quotes and slashes, whose brackets and braces are well nested. -/
inductive IsNested : Text → Prop
  | nil : IsNested []
  | plain (c : Char) (rest : Text) (other : c ∉ listMarks) (tail : IsNested rest) : IsNested (c :: rest)
  | brackets (inner rest : Text) (inside : IsNested inner) (tail : IsNested rest) :
      IsNested ('[' :: (inner ++ ']' :: rest))
  | braces (inner rest : Text) (inside : IsNested inner) (tail : IsNested rest) :
      IsNested ('{' :: (inner ++ '}' :: rest))

namespace IsNested

variable {text rest : Text}

theorem append_plain (front : Text) (plain : front.all fun c => c ∉ listMarks) (nested : IsNested text) :
    IsNested (front ++ text) := by
  induction front with
  | nil => exact nested
  | cons c front ih =>
    simp only [List.all_cons, Bool.and_eq_true, decide_eq_true_eq] at plain
    exact .plain c _ plain.1 (ih plain.2)

theorem oneLine (nested : IsNested text) : '\n' ∉ text := by
  induction nested with
  | nil => simp
  | plain c rest other _ ih =>
    have apart : '\n' ≠ c := by
      rintro rfl
      simp [listMarks] at other
    simp [ih, apart]
  | brackets inner rest _ _ first second => simp [first, second]
  | braces inner rest _ _ first second => simp [first, second]

theorem not_isSign (nested : IsNested text) (unbraced : '{' ∉ text) : ∀ c ∈ text, ¬IsSign c := by
  induction nested with
  | nil => simp
  | plain c rest other _ ih =>
    have tail := ih fun inside => unbraced (List.mem_cons_of_mem _ inside)
    simp only [listMarks, List.mem_cons, List.not_mem_nil, or_false, not_or] at other
    intro d member
    rcases List.mem_cons.mp member with rfl | later
    · simp [IsSign, other]
    · exact tail d later
  | brackets inner rest _ _ first second =>
    simp only [List.mem_cons, List.mem_append, not_or] at unbraced
    obtain ⟨-, inside, -, after⟩ := unbraced
    intro d member
    simp only [List.mem_cons, List.mem_append] at member
    rcases member with rfl | here | rfl | there
    · simp [IsSign]
    · exact first inside d here
    · simp [IsSign]
    · exact second after d there
  | braces inner rest => simp at unbraced

theorem isBody_append (nested : IsNested text) (tail : IsBody rest) : IsBody (text ++ rest) := by
  induction nested generalizing rest with
  | nil => exact tail
  | plain c more other _ ih =>
    simp only [listMarks, List.mem_cons, List.not_mem_nil, or_false, not_or] at other
    exact .plain c _ (by simp [IsSign, other]) (ih tail)
  | brackets inner more _ _ first second =>
    have after : IsBody (']' :: (more ++ rest)) := .plain ']' _ (by simp [IsSign]) (second tail)
    simpa using IsBody.plain '[' _ (by simp [IsSign]) (first after)
  | braces inner more _ _ first second =>
    have whole : IsBody inner := by simpa using first .nil
    simpa using IsBody.braces inner (more ++ rest) whole (second tail)

end IsNested

/-- The text of a list of type parameters, without the outer brackets. -/
structure ParameterList where
  text : Text
  nested : IsNested text

namespace ParameterList

def bracketed (list : ParameterList) : Text := '[' :: (list.text ++ [']'])

/-- After the first closing bracket in the list there is the word for the type, blanks aside. -/
def KeepsKind (list : ParameterList) (kind : Braced) : Prop :=
  ∀ front back, list.text = front ++ ']' :: back → ']' ∉ front →
    ∃ gap more, AllBlank gap ∧ (∀ c ∈ more.head?, isWord c = false) ∧ back = gap ++ (kind.text ++ more)

/-- A body that follows braces in the list ends on its first line. -/
def KeepsEnd (list : ParameterList) (body : Body) : Prop := '{' ∈ list.text → '\n' ∉ body.text

end ParameterList

/-! ## Scanning a list for the closing brace -/

namespace BraceScan

variable {text : Text} {lines others : List Text}

/-- Braces close where the first of them that enclose all others do. -/
theorem linesFrom_nested (nested : IsNested text) (braced : '{' ∈ text) (rest : Text) (after : List Text) :
    start.linesFrom (text ++ rest) after = 0 := by
  have passes : ∀ {front : Text}, IsNested front → '{' ∉ front → ∀ more,
      start.linesFrom (front ++ more) after = start.linesFrom more after := by
    intro front plain unbraced more
    apply linesFrom_append plain.oneLine rfl
    intro c member next
    exact codeStep_plain (plain.not_isSign unbraced c member) start next
  have single : ∀ c ∈ ['[', ']'], ∀ more, start.linesFrom (c :: more) after = start.linesFrom more after := by
    intro c member more
    simp only [List.mem_cons, List.not_mem_nil, or_false] at member
    rcases member with rfl | rfl <;> exact linesFrom_cons (by decide) _ _ _
  induction nested generalizing rest with
  | nil => simp at braced
  | plain c more other _ ih =>
    simp only [listMarks, List.mem_cons, List.not_mem_nil, or_false, not_or] at other
    have later : '{' ∈ more := by
      rcases List.mem_cons.mp braced with same | later
      · exact absurd same.symm other.2.2.1
      · exact later
    have still : ∀ next, start.step c next = start := codeStep_plain (by simp [IsSign, other]) start
    rw [List.cons_append, linesFrom_cons other.2.2.2.2.2.2.2, still]
    exact ih later rest
  | brackets inner more inside _ first second =>
    rw [List.cons_append, single '[' (by simp), List.append_assoc]
    by_cases here : '{' ∈ inner
    · exact first here _
    · have later : '{' ∈ more := by simpa [here] using braced
      rw [passes inside here, List.cons_append, single ']' (by simp)]
      exact second later rest
  | braces inner more inside _ _ _ =>
    have entered : ∀ next, start.step '{' next = within .code 1 := fun _ => rfl
    have body : IsBody inner := by simpa using inside.isBody_append .nil
    have through : (within .code 1).linesFrom (inner ++ '}' :: (more ++ rest)) after = _ :=
      linesFrom_body body (Int.le_refl 1) (by simp) (by simp) after
    rw [linesFrom_last, List.count_eq_zero.mpr inside.oneLine] at through
    rw [List.cons_append, linesFrom_cons (by decide), entered, if_neg (by simp [within])]
    simpa using through

/-- A scan that closes on one of the first lines does not see the lines after them. -/
theorem linesToClose_append {scan : BraceScan} (below : others ≠ [])
    (early : scan.linesToClose (lines ++ others) < lines.length) (instead : List Text) :
    scan.linesToClose (lines ++ instead) = scan.linesToClose (lines ++ others) := by
  induction lines generalizing scan with
  | nil => simp at early
  | cons line lines ih =>
    have known : scan.linesToClose (line :: (lines ++ others)) = _ :=
      linesToClose_cons scan line (by simp [below])
    simp only [List.cons_append, known] at early ⊢
    by_cases closed : (scan.line line).closed = true
    · by_cases last : lines ++ instead = []
      · simp [last, linesToClose, closed]
      · simp [linesToClose_cons _ _ last, closed]
    · rw [if_neg closed, List.length_cons, Nat.add_lt_add_iff_right] at early
      have more : lines ≠ [] := by
        rintro rfl
        simp at early
      rw [linesToClose_cons _ _ (by simp [more]), ih early]

end BraceScan

/-! ## The lines above a declaration -/

section

variable {grouped : Bool} {number : Nat} {line name rest : Text} {above others : List Text} {decl : TypeDecl}

/-- A declaration that ends above some lines is the same whatever these lines are. -/
theorem declOn?_append (below : others ≠ [])
    (early : ∀ decl, declOn? grouped number line (above ++ others) = some decl →
      decl.last ≤ number + above.length) (instead : List Text) :
    declOn? grouped number line (above ++ instead) = declOn? grouped number line (above ++ others) := by
  unfold declOn? at early ⊢
  split_ifs at early ⊢ with edge
  · rfl
  · cases found : specOfLine? grouped line with
    | none => rfl
    | some spec =>
      simp only [found, Option.bind_some, typeDecl?] at early ⊢
      cases read : typeSpec? spec with
      | none => rfl
      | some parts =>
        obtain ⟨name, kind⟩ := parts
        have bound := early _ (by rw [read, Option.map_some])
        by_cases braced : isBraced kind spec = true
        · simp only [braced, if_true] at bound
          have same : BraceScan.start.linesToClose (line :: above ++ instead) = _ :=
            BraceScan.linesToClose_append below (by rw [List.cons_append, List.length_cons]; omega) instead
          simp only [List.cons_append] at same
          simp [same]
        · simp [braced]

/-- Up to a line that is in no body, lines are read in the same way whatever follows from there on. -/
theorem exists_readAbove (below : others ≠ []) (outside : ¬InBody (above ++ others) (above.length + 1)) :
    ∃ grouped begun,
      (grouped = true ↔ InGroup (¬InBody (above ++ others) ·) (above ++ others) (above.length + 1)) ∧
      ∀ instead, typesOf (above ++ instead) = begun ++ typesFrom grouped 0 (above.length + 1) instead := by
  have each : ∀ number ≤ above.length, ∃ grouped skip begun,
      Reached (above ++ others) number grouped skip begun ∧
        ∀ instead, typesOf (above ++ instead) =
          begun ++ typesFrom grouped skip (number + 1) ((above ++ instead).drop number) := by
    intro number inside
    induction number with
    | zero => exact ⟨false, 0, [], .start _, fun _ => rfl⟩
    | succ number ih =>
      obtain ⟨grouped, skip, begun, reached, split⟩ := ih (by omega)
      obtain ⟨line, later, left⟩ : ∃ line later, above.drop number = line :: later :=
        ⟨_, _, List.drop_eq_getElem_cons inside⟩
      have leftBoth : ∀ tail : List Text, (above ++ tail).drop number = line :: (later ++ tail) := by
        intro tail
        rw [List.drop_append_of_le_length (by omega), left, List.cons_append]
      have next := reached.next (leftBoth others)
      have length : number + 1 + later.length = above.length := by
        have counted := congrArg List.length left
        simp only [List.length_drop, List.length_cons] at counted
        omega
      have same : ∀ instead, lineRead grouped skip (number + 1) line (later ++ instead) =
          lineRead grouped skip (number + 1) line (later ++ others) := by
        intro instead
        cases skip with
        | succ skip => rfl
        | zero =>
          -- A declaration that begins here ends above, for otherwise the line below would be in its body.
          have early : ∀ decl, declOn? grouped (number + 1) line (later ++ others) = some decl →
              decl.last ≤ number + 1 + later.length := by
            intro decl declared
            obtain ⟨first, -⟩ := bounds_of_declOn? declared
            have member : decl ∈ typesOf (above ++ others) := by
              rw [next.split]
              simp [lineRead, declared]
            by_contra beyond
            exact outside ⟨decl, member, by omega, by omega⟩
          simp only [lineRead, declOn?_append below early instead]
      refine ⟨_, _, _, next, ?_⟩
      intro instead
      have after : (above ++ instead).drop (number + 1) = later ++ instead := by
        rw [← List.drop_drop, leftBoth instead]
        rfl
      rw [split, leftBoth instead, typesFrom_lineRead, same, after, List.append_assoc]
  obtain ⟨grouped, skip, begun, reached, split⟩ := each above.length le_rfl
  obtain rfl : skip = 0 := by simpa [reached.inBody_iff] using outside
  exact ⟨grouped, begun, reached.group, fun instead => by simpa using split instead⟩

/-! ## The line of a declaration -/

theorem NameStands.trimLeft_eq {grouped : Prop} (stands : NameStands grouped name line rest) :
    (grouped ∧ trimLeft line = name ++ rest) ∨ (¬grouped ∧ ∃ gap, gap ≠ [] ∧ AllBlank gap ∧
      trimLeft line = "type".toList ++ (gap ++ (name ++ rest))) := by
  obtain ⟨word, -, indent, blank, ⟨inside, rfl⟩ | ⟨outside, gap, apart, gapBlank, rfl⟩⟩ := stands
  · exact .inl ⟨inside, trimLeft_word blank word rest⟩
  · exact .inr ⟨outside, gap, apart, gapBlank, trimLeft_word blank isWord_type _⟩

/-- The name and the kind are read from what stands after the name. -/
theorem NameStands.exists_spec (stands : NameStands (grouped = true) name line rest)
    (filled : ∃ c ∈ rest, isBlank c = false) : ∃ tail, (tail = rest ∨ tail = trimRight rest) ∧
      specOfLine? grouped line = some (name ++ tail) ∧
      typeSpec? (name ++ tail) = some (name, kindOfRest (trimRight rest)) := by
  have ⟨word, stops, _⟩ := stands
  obtain ⟨c, member, firm⟩ := filled
  have kept := mem_trimRight member firm
  have trimmed : trim (name ++ rest) = name ++ trimRight rest :=
    trim_append_firm (List.forall_mem_nil _) word.startsFirm word.endsFirm word.1 rest
  have again : trim (name ++ trimRight rest) = name ++ trimRight rest := by rw [← trimmed, trim_trim]
  have stopsTrimmed : ∀ d ∈ (trimRight rest).head?, isWord d = false := by
    obtain ⟨gap, -, split⟩ := exists_trimRight rest
    rwa [split, head?_append_of_ne_nil (List.ne_nil_of_mem kept)] at stops
  have read : word? (name ++ trimRight rest) = some (name, trimRight rest) :=
    word?_eq_some_iff.mpr ⟨word, stopsTrimmed, rfl⟩
  have nonempty : trim (trimRight rest) ≠ [] := trim_ne_nil kept firm
  rcases stands.trimLeft_eq with ⟨inside, same⟩ | ⟨outside, gap, apart, blank, same⟩
  · refine ⟨trimRight rest, .inr rfl, ?_, ?_⟩
    · have text : trim line = name ++ trimRight rest := by
        rw [trim, same, trimRight_append_firm word.endsFirm]
      have uncommented : startsWith ['/', '/'] (name ++ trimRight rest) = false := by
        obtain ⟨d, more, rfl⟩ := List.exists_cons_of_ne_nil word.1
        have slash : '/' ≠ d := by
          rintro rfl
          exact absurd (word.2 '/' (by simp)) (by decide)
        simp [startsWith, after?, slash]
      simp [specOfLine?, inside, text, uncommented, word.1]
    · simp [typeSpec?, again, read, nonempty]
  · refine ⟨rest, .inl rfl, ?_, ?_⟩
    · have firm : StartsFirm (name ++ rest) := word.startsFirm.append word.1
      have skipped : afterBlanks? (gap ++ (name ++ rest)) = some (name ++ rest) :=
        afterBlanks?_eq_some_iff.mpr ⟨firm, gap, apart, blank, rfl⟩
      rw [specOfLine?, if_neg outside, afterClauseWord?, same, after?_append]
      exact skipped
    · simp [typeSpec?, trimmed, read, nonempty]

/-- A line that names a type is no comment. -/
theorem NameStands.isComment_eq_false {grouped : Prop} (stands : NameStands grouped name line rest) :
    isComment line = false := by
  have other : ∀ word more, IsWord word → trimLeft line = word ++ more → isComment line = false := by
    intro word more valid same
    obtain ⟨c, tail, rfl⟩ := List.exists_cons_of_ne_nil valid.1
    have slash : '/' ≠ c := by
      rintro rfl
      exact absurd (valid.2 '/' (by simp)) (by decide)
    simp [isComment, commentText?, same, after?, slash]
  rcases stands.trimLeft_eq with ⟨-, same⟩ | ⟨-, gap, -, -, same⟩
  · exact other name rest stands.1 same
  · exact other _ _ isWord_type same

/-- Such a line names no package, unless the type has the name of that clause. -/
theorem NameStands.packageOfLine?_eq_none {grouped : Prop} (stands : NameStands grouped name line rest)
    (other : ¬(grouped ∧ name = "package".toList)) : packageOfLine? line = none := by
  suffices none : afterClauseWord? "package".toList line = none by rw [packageOfLine?, none]; rfl
  refine Option.eq_none_iff_forall_ne_some.mpr ?_
  intro spec found
  obtain ⟨-, indent, gap, blank, apart, gapBlank, split⟩ := (afterClauseWord?_eq_some_iff isWord_package).mp found
  have begins : trimLeft line = "package".toList ++ (gap ++ spec) := by
    rw [split, trimLeft_word blank isWord_package]
  have stops : ∀ {gap : Text} (more : Text), AllBlank gap → gap ≠ [] →
      ∀ c ∈ (gap ++ more).head?, isWord c = false := by
    intro gap more blank apart
    exact stops_at_gap blank apart (fun _ => isWord_of_isBlank) more
  rcases stands.trimLeft_eq with ⟨inside, same⟩ | ⟨-, between, separate, betweenBlank, same⟩
  · have equal :=
      word_append_inj stands.1 isWord_package stands.2.1 (stops spec gapBlank apart) (same.symm.trans begins)
    exact other ⟨inside, equal.1⟩
  · have equal := word_append_inj isWord_type isWord_package (stops _ betweenBlank separate)
      (stops spec gapBlank apart) (same.symm.trans begins)
    exact absurd equal.1 (by decide)

end

/-! ## The kind of a declaration -/

def Braced.kind : Braced → TypeKind
  | struct => .struct
  | interface => .interface

/-- What stands after the name of a declaration with a list of parameters, or with none. -/
def afterName (kind : Braced) (list more : Text) : Text := list ++ ' ' :: (kind.text ++ ' ' :: '{' :: more)

theorem Braced.isWord (kind : Braced) : IsWord kind.text := by
  refine ⟨?_, kind.isWord_text⟩
  cases kind <;> decide

section

variable {rest word text more : Text}

theorem startsWithWord_iff (valid : IsWord word) : startsWithWord word text = true ↔
    ∃ more, (∀ c ∈ more.head?, isWord c = false) ∧ text = word ++ more := by
  have last : word.getLast?.any isWord = true := by
    have ends := List.getLast?_eq_some_getLast valid.1
    simp [ends, valid.2 _ (List.getLast_mem valid.1)]
  constructor
  · intro starts
    unfold startsWithWord at starts
    cases found : after? word text with
    | none => simp [found] at starts
    | some more =>
      refine ⟨more, ?_, eq_append_of_after? found⟩
      intro c first
      simpa [found, isWordEdge, last, Option.mem_def.mp first] using starts
  · rintro ⟨more, stops, rfl⟩
    have edge : more.head?.any isWord = false := by
      cases more with
      | nil => rfl
      | cons c more => simpa using stops c rfl
    simp [startsWithWord, after?_append, isWordEdge, last, edge]

/-- The first character tells the words for types from each other and from an equals sign. -/
theorem Braced.head_of_startsWithWord {kind : Braced} (starts : startsWithWord kind.text text = true) :
    text.head? = kind.text.head? := by
  obtain ⟨more, -, rfl⟩ := (startsWithWord_iff kind.isWord).mp starts
  exact head?_append_of_ne_nil kind.isWord.1

theorem kindOfRest_eq_iff (kind : Braced) : kindOfRest rest = kind.kind ↔
    startsWithWord kind.text (afterTypeParameters (trimLeft rest)) = true := by
  unfold kindOfRest
  generalize afterTypeParameters (trimLeft rest) = text
  constructor
  · intro same
    dsimp only at same
    split_ifs at same with equal struct interface
    · cases kind <;> cases same
    · cases kind with
      | struct => exact struct
      | interface => cases same
    · cases kind with
      | struct => cases same
      | interface => exact interface
    · cases kind <;> cases same
  · intro starts
    have first := Braced.head_of_startsWithWord starts
    have unequal : text.head? ≠ some '=' := by
      rw [first]
      cases kind <;> decide
    cases kind with
    | struct => exact (if_neg unequal).trans (if_pos starts)
    | interface =>
      have other : ¬startsWithWord "struct".toList text = true := by
        intro struct
        have head : text.head? = Braced.struct.text.head? := Braced.head_of_startsWithWord struct
        exact absurd (first.symm.trans head) (by decide)
      exact (if_neg unequal).trans ((if_neg other).trans (if_pos starts))

/-- The end of a list and the word after it, with the blanks before the brace. -/
theorem trimRight_afterName (kind : Braced) (list more : Text) :
    trimRight (afterName kind list more) = afterName kind list (trimRight more) := by
  have firm : EndsFirm (list ++ ' ' :: (kind.text ++ [' ', '{'])) := by
    have brace := endsFirm_concat (list ++ ' ' :: (kind.text ++ [' '])) (c := '{') (by decide)
    simpa using brace
  have cut := trimRight_append_firm firm more
  simpa [afterName] using cut

theorem afterTypeParameters_word (kind : Braced) (more : Text) :
    afterTypeParameters (trimLeft (' ' :: (kind.text ++ ' ' :: more))) = kind.text ++ ' ' :: more := by
  cases kind <;> rfl

theorem startsWithWord_word (kind : Braced) (more : Text) :
    startsWithWord kind.text (kind.text ++ ' ' :: more) = true := by
  refine (startsWithWord_iff kind.isWord).mpr ⟨' ' :: more, ?_, rfl⟩
  rintro c ⟨⟩
  decide

/-- Without a list the kind is that of the word. -/
theorem kindOfRest_plain (kind : Braced) (more : Text) :
    kindOfRest (afterName kind [] more) = kind.kind := by
  rw [kindOfRest_eq_iff, afterName, List.nil_append, afterTypeParameters_word]
  exact startsWithWord_word kind _

/-- A word that stands before a bracket is not reached by what follows the bracket. -/
theorem startsWithWord_append (kind : Braced) (text more : Text) :
    startsWithWord kind.text (text ++ ']' :: more) = true ↔ startsWithWord kind.text text = true := by
  rw [startsWithWord_iff kind.isWord, startsWithWord_iff kind.isWord]
  constructor
  · rintro ⟨tail, stops, same⟩
    have absent : ']' ∉ kind.text := by cases kind <;> decide
    obtain ⟨rest, rfl⟩ := isPrefix_of_append_cons absent ⟨tail, same.symm⟩
    obtain rfl : rest ++ ']' :: more = tail := by simpa using same
    refine ⟨rest, ?_, rfl⟩
    intro c first
    exact stops c (List.mem_head?_append_of_mem_head? first)
  · rintro ⟨rest, stops, rfl⟩
    refine ⟨rest ++ ']' :: more, ?_, List.append_assoc _ _ _⟩
    intro c first
    cases rest with
    | nil =>
      obtain rfl : ']' = c := by simpa using first
      decide
    | cons d rest => exact stops c first

theorem trimLeft_append_bracket (text more : Text) :
    trimLeft (text ++ ']' :: more) = trimLeft text ++ ']' :: more := by
  induction text with
  | nil => rfl
  | cons c text ih =>
    by_cases blank : isBlank c = true
    · simpa [trimLeft, blank] using ih
    · simp [trimLeft, blank]

theorem ParameterList.keepsKind_iff {list : ParameterList} {front back : Text} (kind : Braced)
    (split : list.text = front ++ ']' :: back) (first : ']' ∉ front) :
    list.KeepsKind kind ↔ startsWithWord kind.text (trimLeft back) = true := by
  rw [startsWithWord_iff kind.isWord]
  constructor
  · intro keeps
    obtain ⟨gap, more, blank, stops, rfl⟩ := keeps front back split first
    exact ⟨more, stops, trimLeft_word blank kind.isWord more⟩
  · rintro ⟨more, stops, same⟩ front' back' split' first'
    have tails := congrArg (List.dropWhile (· ≠ ']')) (split.symm.trans split')
    rw [dropWhile_ne_append first, dropWhile_ne_append first'] at tails
    obtain rfl := (List.cons.inj tails).2
    obtain ⟨gap, blank, cut⟩ := exists_trimLeft back
    exact ⟨gap, more, blank, stops, by rw [← same, ← cut]⟩

/-- With a list it is that of the word if this also stands after the first closing bracket of the list. -/
theorem kindOfRest_bracketed_iff (list : ParameterList) (kind : Braced) (more : Text) :
    kindOfRest (afterName kind list.bracketed more) = kind.kind ↔ list.KeepsKind kind := by
  have opened : trimLeft (afterName kind list.bracketed more) = '[' :: (list.text ++
      ']' :: ' ' :: (kind.text ++ ' ' :: '{' :: more)) := by
    have written : afterName kind list.bracketed more = '[' :: (list.text ++
        ']' :: ' ' :: (kind.text ++ ' ' :: '{' :: more)) := by simp [afterName, ParameterList.bracketed]
    rw [written]
    rfl
  have closes : (list.text ++ ']' :: ' ' :: (kind.text ++ ' ' :: '{' :: more)).contains ']' = true := by simp
  rw [kindOfRest_eq_iff, opened, afterTypeParameters, if_pos closes]
  by_cases closed : ']' ∈ list.text
  · obtain ⟨front, back, split, first⟩ := List.eq_append_cons_of_mem closed
    have skipped :
        ((list.text ++ ']' :: ' ' :: (kind.text ++ ' ' :: '{' :: more)).dropWhile (· ≠ ']')).drop 1 =
        back ++ ']' :: ' ' :: (kind.text ++ ' ' :: '{' :: more) := by
      rw [split, List.append_assoc, List.cons_append, dropWhile_ne_append first]
      rfl
    rw [skipped, trimLeft_append_bracket, startsWithWord_append, list.keepsKind_iff kind split first]
  · have kept : list.KeepsKind kind := by
      intro front back split
      exact absurd (by simp [split]) closed
    have word := startsWithWord_word kind ('{' :: more)
    rw [dropWhile_ne_append closed]
    refine iff_of_true ?_ kept
    cases kind <;> exact word

end

/-! ## A declaration in a source -/

/-- A struct or an interface, declared on lines of its own. Anything may follow the closing brace. -/
structure Site where
  above : List LineText
  /-- It is written as a member of a group. -/
  grouped : Bool
  indent : Spacing
  name : Text
  word : IsWord name
  kind : Braced
  body : Body
  below : Text

namespace Site

variable (site : Site) {list : Text}

/-- What stands before the name on its line. -/
def lead : Text := site.indent.text ++ if site.grouped then [] else "type ".toList

/-- The declaration up to its opening brace, with a text after the name. -/
def front (list : Text) : Text := site.lead ++ (site.name ++ afterName site.kind list [])

/-- What follows the opening brace. -/
def rest : Text := site.body.text ++ '}' :: site.below

/-- The source, with a text after the name of the type. -/
def text (list : Text) : Text :=
  site.above.flatMap (fun line => line.text ++ ['\n']) ++ (site.front list ++ site.rest)

def lines (list : Text) : List Text := (site.text list).splitOn '\n'

def number : Nat := site.above.length + 1

def decl : TypeDecl where
  name := site.name
  kind := site.kind.kind
  first := site.number
  last := site.number + site.body.text.count '\n'

/-- It stands in no body, and in a group just if it is written as a member of one. -/
structure Stands : Prop where
  outside : ¬InBody (site.lines []) site.number
  group : InGroup (¬InBody (site.lines []) ·) (site.lines []) site.number ↔ site.grouped = true

theorem splitOn_above (above : List LineText) (text : Text) :
    (above.flatMap (fun line => line.text ++ ['\n']) ++ text).splitOn '\n' =
      above.map (·.text) ++ text.splitOn '\n' := by
  induction above with
  | nil => rfl
  | cons line above ih =>
    rw [List.flatMap_cons, List.append_assoc, List.append_assoc, List.singleton_append,
      List.splitOn_append_cons_self, List.splitOn_eq_singleton line.oneLine, ih]
    rfl

theorem lead_plain : ∀ c ∈ site.lead, ¬IsSign c := by
  intro c member
  rcases List.mem_append.mp member with space | keyword
  · exact not_isSign_of_isBlank (site.indent.blank c space)
  · cases grouped : site.grouped with
    | true => simp [grouped] at keyword
    | false =>
      have known : "type ".toList.all (fun c => isWord c || isBlank c) = true := by decide
      rw [grouped] at keyword
      rcases (Bool.or_eq_true ..).mp (List.all_eq_true.mp known c keyword) with word | space
      · exact not_isSign_of_isWord word
      · exact not_isSign_of_isBlank space

/-- The text before the opening brace, with a list that has no braces. -/
theorem front_eq (list : Text) : site.front list =
    (site.lead ++ (site.name ++ (list ++ ' ' :: (site.kind.text ++ [' '])))) ++ ['{'] := by
  simp [front, afterName]

theorem front_oneLine (oneLine : '\n' ∉ list) : '\n' ∉ site.front list := by
  have lead : '\n' ∉ site.lead := by
    cases grouped : site.grouped <;> simp [Site.lead, grouped, site.indent.oneLine]
  have name : '\n' ∉ site.name :=
    Clause.oneLine_of_unbroken fun c member => isBlank_of_isWord (site.word.2 c member)
  have kind : '\n' ∉ site.kind.text := by cases site.kind <;> decide
  simp [front_eq, lead, name, kind, oneLine]

/-- The list is on the first line of the declaration, and all other lines are the same with any list. -/
theorem exists_lines : ∃ more others, ∀ list, '\n' ∉ list →
    (site.front list ++ site.rest).splitOn '\n' = (site.front list ++ more) :: others ∧
      site.lines list = site.above.map (·.text) ++ (site.front list ++ more) :: others := by
  obtain ⟨more, others, split⟩ := List.exists_cons_of_ne_nil (List.splitOn_ne_nil '\n' site.rest)
  refine ⟨more, others, ?_⟩
  intro list oneLine
  obtain ⟨first, rest, same, whole⟩ := splitOn_append (site.front_oneLine oneLine) site.rest
  obtain ⟨rfl, rfl⟩ := List.cons.inj (split.symm.trans same)
  exact ⟨whole, by rw [lines, text, splitOn_above, whole]⟩

/-- The name stands on that line, whatever list follows. -/
theorem nameStands (stops : ∀ c ∈ list.head?, isWord c = false) (more : Text) :
    NameStands (site.grouped = true) site.name (site.front list ++ more) (afterName site.kind list more) := by
  refine ⟨site.word, ?_, site.indent.text, site.indent.blank, ?_⟩
  · intro c first
    cases list with
    | nil =>
      obtain rfl : ' ' = c := by simpa [afterName] using first
      decide
    | cons d list => exact stops c (by simpa [afterName] using first)
  · cases grouped : site.grouped with
    | true => exact .inl ⟨rfl, by simp [front, lead, grouped, afterName]⟩
    | false =>
      refine .inr ⟨by simp, [' '], by simp, by decide, ?_⟩
      simp [front, lead, grouped, afterName]

/-- What is read of the line: the kind is that of the text after the name, and the last line is where the
brace closes, for a type with braces. -/
theorem declOn?_front (stops : ∀ c ∈ list.head?, isWord c = false) {more : Text} {others : List Text} :
    declOn? site.grouped site.number (site.front list ++ more) others = some
      { name := site.name
        kind := kindOfRest (afterName site.kind list (trimRight more))
        first := site.number
        last := if kindOfRest (afterName site.kind list (trimRight more)) = .struct ∨
            kindOfRest (afterName site.kind list (trimRight more)) = .interface then
          site.number + BraceScan.start.linesToClose ((site.front list ++ more) :: others)
        else site.number } := by
  have stands := site.nameStands stops more
  have brace : '{' ∈ afterName site.kind list more := by simp [afterName]
  have firm : isBlank '{' = false := by decide
  obtain ⟨tail, same, found, read⟩ := stands.exists_spec ⟨'{', brace, firm⟩
  have inside : '{' ∈ tail := by
    rcases same with rfl | rfl
    · exact brace
    · exact mem_trimRight brace firm
  obtain ⟨unended, unstarted⟩ := stands.isInner
  rw [declOn?, unended, unstarted, found, Option.bind_some, typeDecl?, read, Option.map_some,
    trimRight_afterName]
  simp [isBraced, inside]

/-- The brace of a declaration without braces in its list closes after the body. -/
theorem linesFrom_plain (plain : ∀ c ∈ list, ¬IsSign c) (oneLine : '\n' ∉ list) :
    BraceScan.start.linesFrom (site.front list ++ site.rest) [] = site.body.text.count '\n' := by
  have before : '\n' ∉ site.lead ++ (site.name ++ (list ++ ' ' :: (site.kind.text ++ [' ']))) := by
    have whole := site.front_oneLine oneLine
    rw [front_eq] at whole
    exact fun inside => whole (List.mem_append_left _ inside)
  have signless : ∀ c ∈ site.lead ++ (site.name ++ (list ++ ' ' :: (site.kind.text ++ [' ']))),
      ¬IsSign c := by
    intro c member
    simp only [List.mem_append, List.mem_cons, List.not_mem_nil, or_false] at member
    rcases member with lead | name | inside | rfl | word | rfl
    · exact site.lead_plain c lead
    · exact not_isSign_of_isWord (site.word.2 c name)
    · exact plain c inside
    · simp [IsSign]
    · exact not_isSign_of_isWord (site.kind.isWord_text c word)
    · simp [IsSign]
  have closes := BraceScan.linesToClose_body before signless site.body.nested site.below []
  rw [front_eq, List.append_assoc]
  exact closes

/-- Braces in the list close the scan on the first line. -/
theorem linesFrom_braced (list : ParameterList) (braced : '{' ∈ list.text) :
    BraceScan.start.linesFrom (site.front list.bracketed ++ site.rest) [] = 0 := by
  have oneLine : '\n' ∉ site.lead ++ (site.name ++ ['[']) := by
    have whole : '\n' ∉ site.front [] := site.front_oneLine (by simp)
    simp only [front, List.mem_append, not_or] at whole
    simp [whole]
  have idle : ∀ c ∈ site.lead ++ (site.name ++ ['[']), ∀ next,
      BraceScan.start.step c next = BraceScan.start := by
    intro c member next
    have plain : ¬IsSign c := by
      simp only [List.mem_append, List.mem_cons, List.not_mem_nil, or_false] at member
      rcases member with lead | name | rfl
      · exact site.lead_plain c lead
      · exact not_isSign_of_isWord (site.word.2 c name)
      · simp [IsSign]
    exact BraceScan.codeStep_plain plain _ next
  have written : site.front list.bracketed ++ site.rest = (site.lead ++ (site.name ++ ['['])) ++
      (list.text ++ (']' :: afterName site.kind [] [] ++ site.rest)) := by
    simp [front, afterName, ParameterList.bracketed]
  rw [written, BraceScan.linesFrom_append oneLine rfl idle]
  exact BraceScan.linesFrom_nested list.nested braced _ []

/-! ### The types of the source -/

theorem isWord_head_bracketed (list : ParameterList) : ∀ c ∈ list.bracketed.head?, isWord c = false := by
  rintro c ⟨⟩
  decide

theorem bracketed_oneLine (list : ParameterList) : '\n' ∉ list.bracketed := by
  simp [ParameterList.bracketed, list.nested.oneLine]

/-- The declaration as it is read with a list after the name. -/
def declWith (list : Text) (more : Text) : TypeDecl where
  name := site.name
  kind := kindOfRest (afterName site.kind list (trimRight more))
  first := site.number
  last := if kindOfRest (afterName site.kind list (trimRight more)) = .struct ∨
      kindOfRest (afterName site.kind list (trimRight more)) = .interface then
    site.number + BraceScan.start.linesFrom (site.front list ++ site.rest) []
  else site.number

theorem declWith_nil (more : Text) : site.declWith [] more = site.decl := by
  have closes : BraceScan.start.linesFrom (site.front [] ++ site.rest) [] = _ :=
    site.linesFrom_plain (by simp) (by simp)
  unfold declWith decl
  rw [kindOfRest_plain, closes]
  cases site.kind <;> simp [Braced.kind]

/-- The declaration is read alike with a list and without it. -/
theorem declWith_bracketed_iff (list : ParameterList) (more : Text) :
    site.declWith list.bracketed more = site.decl ↔ list.KeepsKind site.kind ∧ list.KeepsEnd site.body := by
  have kinds := kindOfRest_bracketed_iff list site.kind (trimRight more)
  have braced : site.kind.kind = .struct ∨ site.kind.kind = .interface := by
    cases site.kind <;> simp [Braced.kind]
  rw [declWith, decl, TypeDecl.mk.injEq, ← kinds]
  by_cases same : kindOfRest (afterName site.kind list.bracketed (trimRight more)) = site.kind.kind
  · by_cases brace : '{' ∈ list.text
    · rw [same, if_pos braced, site.linesFrom_braced list brace]
      simp [ParameterList.KeepsEnd, brace, List.count_eq_zero]
    · have plain : ∀ c ∈ list.bracketed, ¬IsSign c := by
        intro c member
        simp only [ParameterList.bracketed, List.mem_cons, List.mem_append, List.not_mem_nil,
          or_false] at member
        rcases member with rfl | inside | rfl
        · simp [IsSign]
        · exact list.nested.not_isSign brace c inside
        · simp [IsSign]
      rw [same, if_pos braced, site.linesFrom_plain plain (bracketed_oneLine list)]
      simp [ParameterList.KeepsEnd, brace]
  · simp [same]

theorem groupedAfter_front (stops : ∀ c ∈ list.head?, isWord c = false) (more : Text) :
    groupedAfter site.grouped (site.front list ++ more) = site.grouped := by
  obtain ⟨unended, unstarted⟩ := (site.nameStands stops more).isInner
  cases grouped : site.grouped <;> simp_all [groupedAfter]

/-- With any list the source is read alike above the declaration, and from its second line on. -/
theorem exists_typesOf (stands : site.Stands) : ∃ begun others more, ∀ list, '\n' ∉ list →
    (∀ c ∈ list.head?, isWord c = false) → typesOf (site.lines list) = begun ++ site.declWith list more ::
      typesFrom site.grouped ((site.declWith list more).last - site.number) (site.number + 1) others := by
  obtain ⟨more, others, written⟩ := site.exists_lines
  have plain := (written [] (by simp)).2
  have above : (site.above.map (·.text)).length + 1 = site.number := by simp [number]
  have outside := stands.outside
  have group := stands.group
  rw [plain, ← above] at outside group
  obtain ⟨grouped, begun, same, each⟩ := exists_readAbove (by simp) outside
  obtain rfl : grouped = site.grouped := Bool.eq_iff_iff.mpr (same.trans group)
  refine ⟨begun, others, more, ?_⟩
  intro list oneLine stops
  obtain ⟨split, lines⟩ := written list oneLine
  have closes : BraceScan.start.linesToClose ((site.front list ++ more) :: others) =
      BraceScan.start.linesFrom (site.front list ++ site.rest) [] := by
    rw [BraceScan.linesFrom, split, List.append_nil]
  have read : declOn? site.grouped site.number (site.front list ++ more) others =
      some (site.declWith list more) := by
    rw [site.declOn?_front stops, closes]
    rfl
  rw [lines, each, above, typesFrom_cons, read, site.groupedAfter_front stops more]
  rfl

/-- The type is one of those that are read, and these are the same with a list just if both its kind and its
end are kept. -/
theorem typesOf_bracketed_iff (stands : site.Stands) (list : ParameterList) :
    site.decl ∈ typesOf (site.lines []) ∧
      (typesOf (site.lines list.bracketed) = typesOf (site.lines []) ↔
        list.KeepsKind site.kind ∧ list.KeepsEnd site.body) := by
  obtain ⟨begun, others, more, each⟩ := site.exists_typesOf stands
  have plain := each [] (by simp) (by simp)
  rw [site.declWith_nil] at plain
  rw [plain, each _ (bracketed_oneLine list) (isWord_head_bracketed list),
    ← site.declWith_bracketed_iff list more]
  refine ⟨by simp, ?_⟩
  constructor
  · intro same
    exact (List.cons.inj (List.append_cancel_left same)).1
  · intro same
    rw [same]

/-- A list of type parameters after the name of a struct or an interface leaves all types of a file as they
are, just if the word for the type also follows the first closing bracket in the list, where there is one, and
the body ends on its first line, where there are braces in the list. A file is read with the list where one is
read without it. It has the same package, too, unless a member of a group is named as that clause. -/
theorem types_kept_iff (stands : site.Stands) (list : ParameterList) (name marker : Text) (file : GoFile)
    (read : GoFile.ofSource name marker (site.text []) = .ok file) :
    site.decl ∈ file.types ∧ ∃ other, GoFile.ofSource name marker (site.text list.bracketed) = .ok other ∧
      (other.types = file.types ↔ list.KeepsKind site.kind ∧ list.KeepsEnd site.body) ∧
      (¬(site.grouped = true ∧ site.name = "package".toList) → other.package = file.package) := by
  obtain ⟨more, others, written⟩ := site.exists_lines
  have plain := (written [] (by simp)).2
  have listed := (written _ (bracketed_oneLine list)).2
  have unlisted : ∀ c ∈ ([] : Text).head?, isWord c = false := by simp
  have stops := isWord_head_bracketed list
  have comment : ∀ {list : Text}, (∀ c ∈ list.head?, isWord c = false) →
      isComment (site.front list ++ more) = false := fun stops =>
    (site.nameStands stops more).isComment_eq_false
  have notes : Note.ofLines marker (site.lines list.bracketed) = Note.ofLines marker (site.lines []) := by
    rw [plain, listed, Note.ofLines_append (comment unlisted), Note.ofLines_append (comment stops)]
  have whole : ∀ list, GoFile.ofSource name marker (site.text list) = (do
      return ⟨name, site.lines list, packageOf? (site.lines list), importsOf (site.lines list),
        typesOf (site.lines list), ← Note.ofLines marker (site.lines list)⟩) := fun _ => rfl
  obtain ⟨member, types⟩ := site.typesOf_bracketed_iff stands list
  rw [whole] at read
  cases found : Note.ofLines marker (site.lines []) with
  | error error => simp [found, bind, Except.bind] at read
  | ok result =>
    simp only [found, bind, Except.bind, pure, Except.pure, Except.ok.injEq] at read
    subst read
    refine ⟨member, _, by rw [whole, notes, found]; rfl, types, ?_⟩
    intro other
    have clause : ∀ {list : Text}, (∀ c ∈ list.head?, isWord c = false) →
        packageOfLine? (site.front list ++ more) = none := fun stops =>
      (site.nameStands stops more).packageOfLine?_eq_none other
    simp only [plain, listed, packageOf?, List.findSome?_append, List.findSome?_cons, clause unlisted,
      clause stops]

/-- A body without braces, quotes and slashes. -/
def flatBody (text : Text) (plain : text.all fun c => ¬IsSign c) : Body where
  text := text
  nested := by
    induction text with
    | nil => exact .nil
    | cons c text ih =>
      simp only [List.all_cons, Bool.and_eq_true, decide_eq_true_eq] at plain
      exact .plain c text plain.1 (ih plain.2)

/-- A struct of three lines in a group, with another member below. -/
def pageSite : Site where
  above := [⟨"package a".toList, by decide⟩, ⟨"type (".toList, by decide⟩]
  grouped := true
  indent := ⟨['\t'], by decide, by decide⟩
  name := "Page".toList
  word := ⟨by decide, List.all_eq_true.mp (by decide)⟩
  kind := .struct
  body := flatBody "\n\t\tItem T\n\t".toList (by decide)
  below := "\n\tID int\n)".toList

theorem pageSite_stands : pageSite.Stands := ⟨by decide +kernel, by decide +kernel⟩

def pageFile : GoFile where
  name := GoFile.unnamed
  lines := pageSite.lines []
  package := some ['a']
  imports := []
  types := [⟨"Page".toList, .struct, 3, 5⟩, ⟨"ID".toList, .named, 6, 6⟩]
  notes := []

/-- A list of one parameter with a plain constraint. -/
def anyList : ParameterList := ⟨_, IsNested.append_plain "T any".toList (by decide) .nil⟩

/-- The types are the same with a plain list. -/
theorem types_kept_iff_small :
    (pageSite.Stands ∧ GoFile.ofSource GoFile.unnamed defaultMarker (pageSite.text []) = .ok pageFile) ∧
      pageSite.text anyList.bracketed =
        "package a\ntype (\n\tPage[T any] struct \x7b\n\t\tItem T\n\t\x7d\n\tID int\n)".toList ∧
      ∃ other, GoFile.ofSource GoFile.unnamed defaultMarker (pageSite.text anyList.bracketed) = .ok other ∧
        other.types = pageFile.types ∧ other.package = pageFile.package := by
  have read : GoFile.ofSource GoFile.unnamed defaultMarker (pageSite.text []) = .ok pageFile := by
    decide +kernel
  obtain ⟨-, other, found, types, package⟩ :=
    pageSite.types_kept_iff pageSite_stands anyList GoFile.unnamed defaultMarker pageFile read
  have kind : anyList.KeepsKind .struct := by
    intro front back split
    have closed : ']' ∈ anyList.text := by simp [split]
    exact absurd closed (by decide)
  have ends : anyList.KeepsEnd pageSite.body := fun braced => absurd braced (by decide)
  exact ⟨⟨pageSite_stands, read⟩, by decide, other, found, types.mpr ⟨kind, ends⟩, package (by decide)⟩

/-- A list with a slice of another parameter as a constraint. -/
def sliceList : ParameterList :=
  ⟨_, IsNested.append_plain "S ~".toList (by decide)
    (.brackets [] _ .nil (IsNested.append_plain "E, E any".toList (by decide) .nil))⟩

/-- A list with a constraint in braces. -/
def intList : ParameterList :=
  ⟨_, IsNested.append_plain "T interface".toList (by decide)
    (.braces _ [] (IsNested.append_plain " ~int ".toList (by decide) .nil) .nil)⟩

/-- With a closing bracket inside the list the struct is read as a named type of one line, and with braces in
it the struct ends too early, so that its field is read as a type. -/
theorem types_change : pageSite.Stands ∧
    pageSite.front sliceList.bracketed = "\tPage[S ~[]E, E any] struct \x7b".toList ∧
    (GoFile.ofSource GoFile.unnamed defaultMarker (pageSite.text sliceList.bracketed)).map (·.types) =
      .ok [⟨"Page".toList, .named, 3, 3⟩, ⟨"Item".toList, .named, 4, 4⟩, ⟨"ID".toList, .named, 6, 6⟩] ∧
    pageSite.front intList.bracketed = "\tPage[T interface\x7b ~int \x7d] struct \x7b".toList ∧
    (GoFile.ofSource GoFile.unnamed defaultMarker (pageSite.text intList.bracketed)).map (·.types) =
      .ok [⟨"Page".toList, .struct, 3, 3⟩, ⟨"Item".toList, .named, 4, 4⟩, ⟨"ID".toList, .named, 6, 6⟩] ∧
    pageFile.types = [⟨"Page".toList, .struct, 3, 5⟩, ⟨"ID".toList, .named, 6, 6⟩] :=
  ⟨pageSite_stands, by decide, by decide +kernel, by decide, by decide +kernel, rfl⟩

end Site

end ApiNotes.Go
