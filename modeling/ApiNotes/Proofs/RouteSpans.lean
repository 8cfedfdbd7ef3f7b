import ApiNotes.Proofs.ParamSpans

/-!
# Parameters and routes in colour

A parameter and a route are coloured by other rules than they are read by. The spans have the texts of what
was read and follow the keyword exactly where blanks follow the keyword, the type of a parameter has no
quote, its fourth word is no truth value with a mark after it, and the path of a route has no bracket
(`highlight_spells_iff`).
-/

namespace ApiNotes

open Text

section

variable {rest path : Text} {methods : List Text}

/-! ## The parts of a route -/

/-- What a route is read from. -/
theorem exists_of_routeParts? (read : routeParts? rest = some (path, methods)) :
    ∃ after, WordStands rest [] path after ∧ (methods ≠ [] → ∃ gap inside more, gap ≠ [] ∧ AllBlank gap ∧
      after = gap ++ '[' :: (inside ++ ']' :: more) ∧ ']' ∉ inside ∧
        (piecesBetween (fun c => isBlank c || c = ',') inside).map lower = methods) := by
  unfold routeParts? at read
  simp only at read
  split_ifs at read with empty
  obtain ⟨rfl, pieces⟩ := Prod.mk.inj (Option.some.inj read)
  refine ⟨rest.dropWhile fun c => !isBlank c, ⟨List.takeWhile_append_dropWhile.symm, by simp [AllBlank],
    empty, ?_, ?_⟩, fun some => ?_⟩
  · intro c member
    simpa using List.mem_takeWhile_imp member
  · intro c first
    have stopped := List.head?_dropWhile_not (!isBlank ·) rest
    rw [Option.mem_def.mp first] at stopped
    simpa using stopped
  · split at pieces
    · rename_i more found
      obtain ⟨-, gap, apart, blank, split⟩ := afterBlanks?_eq_some_iff.mp found
      by_cases closed : ']' ∈ more
      · obtain ⟨inside, tail, rfl, absent⟩ := List.eq_append_cons_of_mem closed
        rw [if_pos (by simp), takeWhile_ne_append absent] at pieces
        exact ⟨gap, inside, tail, apart, blank, split, absent, pieces⟩
      · rw [if_neg (by simpa using closed)] at pieces
        exact absurd pieces.symm some
    · exact absurd pieces.symm some

end

/-- The methods after a path. -/
def methodsPart? (place : Nat) (text : Text) : Option Part :=
  (blanks? text).bind fun cut => (bracketed? '[' ']' cut.2).map fun read => ⟨place + cut.1.length, read.1⟩

theorem routeSpots?_eq (place : Nat) (text : Text) : routeSpots? place text =
    (afterKeyword? .router place text).bind fun begun =>
      (run? (fun c => !isBlank c && c ≠ '[') begun.2).map fun read =>
        (⟨begun.1, read.1⟩, methodsPart? (begun.1 + read.1.length) read.2) := by
  unfold routeSpots? methodsPart?
  cases afterKeyword? .router place text with
  | none => rfl
  | some begun =>
    simp only [bind, Option.bind]
    cases run? (fun c => !isBlank c && decide (c ≠ '[')) begun.2 with
    | none => rfl
    | some read =>
      simp only [Option.map]
      cases blanks? read.2 with
      | none => rfl
      | some cut =>
        simp only
        cases bracketed? '[' ']' cut.2 <;> rfl

/-! ### Variables -/

theorem eq_append_of_bracketed? {opening closing : Char} {text braced more : Text}
    (found : bracketed? opening closing text = some (braced, more)) : text = braced ++ more := by
  cases text with
  | nil => cases found
  | cons c text =>
    unfold bracketed? at found
    simp only at found
    split_ifs at found with opens
    obtain ⟨rfl, rfl⟩ := Prod.mk.inj (Option.some.inj found)
    have closed : closing ∈ text := List.contains_iff_mem.mp ((Bool.and_eq_true ..).mp opens).2
    obtain ⟨inside, tail, rfl, absent⟩ := List.eq_append_cons_of_mem closed
    rw [takeWhile_ne_append absent, dropWhile_ne_append absent]
    simp

theorem length_pos_of_bracketed? {opening closing : Char} {text braced more : Text}
    (found : bracketed? opening closing text = some (braced, more)) : 0 < braced.length := by
  cases text with
  | nil => cases found
  | cons c text =>
    unfold bracketed? at found
    simp only at found
    split_ifs at found
    obtain ⟨rfl, -⟩ := Prod.mk.inj (Option.some.inj found)
    simp

/-- A part is a stretch of at least one character of a text that begins at a place. -/
def Part.Within (part : Part) (place : Nat) (text : Text) : Prop :=
  place ≤ part.start ∧ 0 < part.text.length ∧ part.start + part.text.length ≤ place + text.length

/-- The variables of a path lie inside it. -/
theorem within_of_mem_variablesFrom {skip place : Nat} {text : Text} {part : Part}
    (member : part ∈ variablesFrom skip place text) : part.Within place text := by
  induction text generalizing skip place with
  | nil => simp [variablesFrom] at member
  | cons c text ih =>
    have later : ∀ {skip}, part ∈ variablesFrom skip (place + 1) text → part.Within place (c :: text) := by
      intro skip inside
      obtain ⟨starts, nonempty, stops⟩ := ih inside
      rw [Part.Within, List.length_cons]
      omega
    unfold variablesFrom at member
    split at member
    · exact later member
    · split at member
      · rename_i braced more found
        rcases List.mem_cons.mp member with rfl | inside
        · have split := congrArg List.length (eq_append_of_bracketed? found)
          rw [List.length_append] at split
          refine ⟨Nat.le_refl place, length_pos_of_bracketed? found, ?_⟩
          dsimp only
          omega
        · exact later inside
      · exact later member

namespace KeywordLine

variable (written : KeywordLine)

/-! ### Routes on their lines -/

/-- The path is found up to a bracket. -/
theorem routeSpots?_body (keyword : written.keyword = .router) (apart : written.gap ≠ [])
    {path after : Text} (stands : WordStands written.rest [] path after) :
    (path.head? = some '[' → routeSpots? written.lead.length written.body = none) ∧
      (path.head? ≠ some '[' → ∃ more, routeSpots? written.lead.length written.body =
          some (⟨written.restPlace, path.takeWhile (· ≠ '[')⟩,
            methodsPart? (written.restPlace + (path.takeWhile (· ≠ '[')).length) more) ∧
        written.rest ++ written.tail = path.takeWhile (· ≠ '[') ++ more ∧
        ('[' ∉ path → more = after ++ written.tail)) := by
  have begun := written.afterKeyword?_body apart stands.ne_nil
  rw [keyword] at begun
  have raw : WordStands (written.rest ++ written.tail) [] path (after ++ written.tail) :=
    stands.append fun c first => written.tailBlank c (List.mem_of_mem_head? first)
  have split : written.rest ++ written.tail = path ++ (after ++ written.tail) := raw.split
  rw [routeSpots?_eq, begun, Option.bind_some, split]
  constructor
  · intro bracket
    have stopped : run? (fun c => !isBlank c && c ≠ '[') (path ++ (after ++ written.tail)) = none := by
      refine run?_eq_none fun c first => ?_
      rw [head?_append_of_ne_nil stands.nonempty, bracket] at first
      obtain rfl : '[' = c := Option.some.inj first
      rfl
    rw [stopped]
    rfl
  · intro other
    obtain ⟨more, run, whole, plain⟩ := raw.run?_until other
    refine ⟨more, ?_, whole, plain⟩
    rw [run]
    rfl

/-- Where blanks follow the keyword and the path has no bracket, path and methods are found where they are
read. -/
theorem exists_routeSpots (keyword : written.keyword = .router) (apart : written.gap ≠ [])
    {path : Text} {methods : List Text} (read : routeParts? written.rest = some (path, methods))
    (unbracketed : '[' ∉ path) : ∃ part inBrackets,
      firstFrom routeSpots? 0 written.line = some (part, inBrackets) ∧
      part.start = written.restPlace ∧ part.StandsIn written.line ∧ part.text = path ∧
      (methods ≠ [] → ∃ spot inside, inBrackets = some spot ∧ spot.StandsIn written.line ∧
        spot.text = '[' :: (inside ++ [']']) ∧
          (piecesBetween (fun c => isBlank c || c = ',') inside).map lower = methods) := by
  obtain ⟨after, stands, listed⟩ := exists_of_routeParts? read
  have other : path.head? ≠ some '[' := fun bracket => unbracketed (List.mem_of_mem_head? bracket)
  obtain ⟨more, found, split, plain⟩ := (written.routeSpots?_body keyword apart stands).2 other
  obtain rfl := plain unbracketed
  rw [takeWhile_ne_of_not_mem unbracketed] at found split
  refine ⟨_, _, written.firstFrom_eq looksForSign_routeSpots? found, rfl,
    written.standsIn [] _ split rfl, rfl, fun some => ?_⟩
  obtain ⟨gap, inside, closing, gapApart, blank, rfl, unclosed, pieces⟩ := listed some
  have bracket : StartsFirm ('[' :: (inside ++ ']' :: (closing ++ written.tail))) := by
    intro c first
    cases first
    decide
  have whole : gap ++ '[' :: (inside ++ ']' :: closing) ++ written.tail =
      gap ++ '[' :: (inside ++ ']' :: (closing ++ written.tail)) := by simp
  refine ⟨⟨written.restPlace + path.length + gap.length, '[' :: (inside ++ [']'])⟩, inside, ?_, ?_, rfl,
    pieces⟩
  · rw [methodsPart?, whole, blanks?_append blank gapApart bracket, Option.bind_some,
      bracketed?_append unclosed]
    rfl
  · refine written.standsIn (path ++ gap) (closing ++ written.tail) ?_ ?_
    · rw [split, whole]
      simp
    · simp [Nat.add_assoc]

end KeywordLine

/-! ## What is found later on the line -/

theorem exists_of_firstFrom {α : Type} {scan : Nat → Text → Option α} {place : Nat} {text : Text} {result : α}
    (found : firstFrom scan place text = some result) : ∃ lead onward, text = lead ++ onward ∧
      scan (place + lead.length) onward = some result := by
  induction text generalizing place with
  | nil => exact ⟨[], [], rfl, found⟩
  | cons c text ih =>
    unfold firstFrom at found
    cases here : scan place (c :: text) with
    | some first =>
      rw [here] at found
      exact ⟨[], c :: text, rfl, here.trans found⟩
    | none =>
      rw [here] at found
      obtain ⟨lead, onward, rfl, later⟩ := ih found
      refine ⟨c :: lead, onward, rfl, ?_⟩
      rwa [List.length_cons, Nat.add_comm lead.length, ← Nat.add_assoc]

theorem lt_of_afterKeyword? {keyword : Keyword} {place start : Nat} {text onward : Text}
    (found : afterKeyword? keyword place text = some (start, onward)) : place < start := by
  simp only [afterKeyword?, bind, Option.bind_eq_some_iff] at found
  obtain ⟨_, -, cut, -, same⟩ := found
  obtain ⟨rfl, -⟩ := Prod.mk.inj (Option.some.inj same)
  simp only [List.length_cons]
  omega

theorem lt_of_paramSpots? {place : Nat} {text : Text} {spots : ParamSpots}
    (found : paramSpots? place text = some spots) : place < spots.name.start := by
  simp only [paramSpots?, bind, Option.bind_eq_some_iff] at found
  obtain ⟨begun, after, _, -, _, -, _, -, same⟩ := found
  obtain rfl := Option.some.inj same
  exact lt_of_afterKeyword? after

theorem lt_of_routeSpots? {place : Nat} {text : Text} {spots : Part × Option Part}
    (found : routeSpots? place text = some spots) : place < spots.1.start := by
  rw [routeSpots?_eq] at found
  obtain ⟨begun, after, read⟩ := Option.bind_eq_some_iff.mp found
  obtain ⟨_, -, rfl⟩ := Option.map_eq_some_iff.mp read
  exact lt_of_afterKeyword? after

namespace KeywordLine

variable (written : KeywordLine)

/-- The column after the keyword. -/
def keywordStop (written : KeywordLine) : Nat :=
  written.lead.length + (written.keyword.text.length + 1)

/-- What a scan finds, but not at the `@` of the annotation, it finds at a later one. -/
theorem not_allBlank_of_later {α : Type} {scan : Nat → Text → Option α} (looks : LooksForSign scan)
    (none : scan written.lead.length written.body = none) {result : α}
    (found : firstFrom scan 0 written.line = some result) {start : Nat}
    (beyond : ∀ place text, scan place text = some result → place < start) :
    ¬AllBlank ((written.line.take start).drop written.keywordStop) := by
  rw [line, body, firstFrom_sign looks written.unsigned, Nat.zero_add, firstFrom] at found
  rw [body] at none
  rw [none] at found
  obtain ⟨before, onward, split, later⟩ := exists_of_firstFrom found
  obtain ⟨after, rfl⟩ : ∃ after, onward = '@' :: after := by
    by_cases sign : onward.head? = some '@'
    · exact List.head?_eq_some_iff.mp sign
    · rw [looks _ _ sign] at later
      cases later
  -- The keyword has no `@` itself.
  obtain ⟨between, rfl⟩ : ∃ between, before = written.keyword.text ++ between := by
    rcases List.append_eq_append_iff.mp split with ⟨between, same, -⟩ | ⟨excess, same, follows⟩
    · exact ⟨between, same⟩
    · cases excess with
      | nil => exact ⟨[], by simpa using same.symm⟩
      | cons c excess =>
        obtain rfl : '@' = c := (List.cons.inj follows).1
        exact absurd (written.keyword.isWord_text.2 '@' (by simp [same])) (by decide)
  have place := beyond _ _ later
  have whole : written.line = (written.lead ++ '@' :: written.keyword.text) ++
      (between ++ '@' :: after) := by
    rw [line, body, split]
    simp
  have stop : written.keywordStop = (written.lead ++ '@' :: written.keyword.text).length := by
    simp [keywordStop]
  obtain ⟨past, rfl⟩ : ∃ past, start =
      (written.lead ++ '@' :: written.keyword.text).length + (between.length + (past + 1)) := by
    rw [List.length_append] at place
    refine ⟨start - ((written.lead ++ '@' :: written.keyword.text).length + between.length + 1), ?_⟩
    simp only [List.length_append, List.length_cons]
    omega
  intro blank
  refine absurd (blank '@' ?_) (by decide)
  rw [whole, stop, List.take_length_add_append, List.drop_left, List.take_length_add_append]
  simp

/-- Nothing but blanks stands between the keyword and the rest of the line. -/
theorem allBlank_to_restPlace :
    AllBlank ((written.line.take written.restPlace).drop written.keywordStop) := by
  have stop : written.keywordStop = (written.lead ++ '@' :: written.keyword.text).length := by
    simp [keywordStop]
  have place : written.restPlace =
      (written.lead ++ '@' :: written.keyword.text).length + written.gap.length := by
    simp [restPlace]
  rw [place, stop, line_eq, List.append_assoc, List.append_assoc, ← List.append_assoc,
    List.take_length_add_append, List.drop_left, List.take_left]
  exact written.gapBlank

end KeywordLine

/-! ## Agreement -/

/-- The texts of the spans on a line in the group of a name. -/
def textsNamed (spans : List Span) (number : Int) (name line : Text) : List Text :=
  (spansNamed spans number name).map (·.textIn line)

theorem spansNamed_ne_nil {spans : List Span} {number : Int} {name line text : Text}
    (texts : textsNamed spans number name line = [text]) : spansNamed spans number name ≠ [] := by
  intro none
  rw [textsNamed, none] at texts
  cases texts

/-- Nothing but blanks stands between the spans of two groups on a line. -/
def NextTo (spans : List Span) (number : Int) (name next line : Text) : Prop :=
  ∀ first ∈ spansNamed spans number name, ∀ second ∈ spansNamed spans number next,
    AllBlank ((line.take second.start.toNat).drop first.stop.toNat)

/-- The spans on the line of a parameter have its texts, and its name comes after the keyword. -/
structure ParamSpelled (spans : List Span) (number : Int) (line name location : Text) (ty : Option Text)
    (required : Option Bool) : Prop where
  name : textsNamed spans number "param_name".toList line = [name]
  location : textsNamed spans number "param_location".toList line = [location]
  type : textsNamed spans number "param_type".toList line = ty.toList
  required : textsNamed spans number "param_required".toList line = (required.map flagText).toList
  next : NextTo spans number "keyword.param".toList "param_name".toList line

/-- The spans on the line of a route have its texts, and its path comes after the keyword. -/
structure RouteSpelled (spans : List Span) (number : Int) (line path : Text) (methods : List Text) :
    Prop where
  path : textsNamed spans number "router_path".toList line = [path]
  inside : ∀ inner ∈ spansNamed spans number "router_path_var".toList,
    ∃ outer ∈ spansNamed spans number "router_path".toList,
      outer.start ≤ inner.start ∧ inner.stop ≤ outer.stop
  methods : methods ≠ [] → ∃ inside,
    textsNamed spans number "router_method".toList line = ['[' :: (inside ++ [']'])] ∧
      (piecesBetween (fun c => isBlank c || c = ',') inside).map lower = methods
  next : NextTo spans number "keyword.router".toList "router_path".toList line

/-- Blanks follow the keyword at the first `@` of a line. -/
def KeywordApart (keyword : Keyword) (line : Text) : Prop :=
  ∃ lead gap more, '@' ∉ lead ∧ AllBlank gap ∧ gap ≠ [] ∧
    line = lead ++ '@' :: (keyword.text ++ (gap ++ more))

namespace Field

/-- The spans say what a parameter or a route says. -/
def IsSpelledIn (field : Field) (spans : List Span) (line : Text) : Prop :=
  match field.detail with
  | .param name location type required => ParamSpelled spans field.line line name location type required
  | .router path methods => RouteSpelled spans field.line line path methods
  | _ => True

/-- A parameter or a route is written so that its spans are those of what is read. -/
def IsClear (field : Field) (line : Text) : Prop :=
  match field.detail with
  | .param _ _ type _ => KeywordApart .param line ∧ (∀ token ∈ type, '"' ∉ token) ∧
      ∀ token ∈ (words field.value)[3]?, ¬FlagWithMark token
  | .router path _ => KeywordApart .router line ∧ '[' ∉ path
  | _ => True

end Field

theorem KeywordLine.keywordApart_iff (written : KeywordLine) (nonempty : written.rest ≠ []) :
    KeywordApart written.keyword written.line ↔ written.gap ≠ [] := by
  constructor
  · rintro ⟨lead, gap, more, unsigned, blank, apart, same⟩ none
    have leads : written.lead = lead := by
      have taken := congrArg (List.takeWhile (· ≠ '@')) same
      rwa [line, body, takeWhile_ne_append written.unsigned, takeWhile_ne_append unsigned] at taken
    rw [line, body, leads, List.append_cancel_left_eq, List.cons.injEq, List.append_cancel_left_eq, none,
      List.nil_append] at same
    obtain ⟨c, tail, rfl⟩ := List.exists_cons_of_ne_nil apart
    have solid : isBlank c = false := written.starts.append nonempty c (by rw [same.2]; rfl)
    rw [blank c (by simp)] at solid
    cases solid
  · intro apart
    exact ⟨written.lead, written.gap, written.rest ++ written.tail, written.unsigned,
      written.gapBlank, apart, rfl⟩

theorem eq_toList_of_perm {α : Type} {items : List α} {item : Option α} (same : items.Perm item.toList) :
    items = item.toList := by
  cases item with
  | none => exact List.perm_nil.mp same
  | some item => exact List.perm_singleton.mp same

namespace Field.IsPlacedIn

variable {field : Field} {spans : List Span} {written : KeywordLine}

theorem keyword_eq (placed : field.IsPlacedIn spans written.line) :
    ∃ span, spansNamed spans field.line ("keyword.".toList ++ field.keyword.kindText) = [span] ∧
      span.stop.toNat = written.keywordStop := by
  have shown := placed.keyword
  rw [written.firstFrom_keywordPart?] at shown
  refine ⟨_, List.perm_singleton.mp shown, ?_⟩
  simp only [Part.span, KeywordLine.keywordStop, List.length_cons]
  omega

/-- The spans of a parameter, by their groups. -/
theorem param_eq (placed : field.IsPlacedIn spans written.line) {name location : Text} {type : Option Text}
    {required : Option Bool} (detail : field.detail = .param name location type required) :
    spansNamed spans field.line "param_name".toList = ((firstFrom paramSpots? 0 written.line).map
        (·.name.span field.line .paramName)).toList ∧
      spansNamed spans field.line "param_location".toList = ((firstFrom paramSpots? 0 written.line).map
        (·.location.span field.line .paramLocation)).toList ∧
      spansNamed spans field.line "param_type".toList = (((firstFrom paramSpots? 0 written.line).bind
        (·.type)).map (·.span field.line .paramType)).toList ∧
      spansNamed spans field.line "param_required".toList = (((firstFrom paramSpots? 0 written.line).bind
        (·.required)).map (·.span field.line .paramRequired)).toList := by
  have picked : ∀ part : SpanGroup, part.isPart = true → _ := placed.part
  refine ⟨eq_toList_of_perm ((picked .paramName rfl).trans (.of_eq ?_)),
    eq_toList_of_perm ((picked .paramLocation rfl).trans (.of_eq ?_)),
    eq_toList_of_perm ((picked .paramType rfl).trans (.of_eq ?_)),
    eq_toList_of_perm ((picked .paramRequired rfl).trans (.of_eq ?_))⟩
  all_goals
    rw [detailSpans, detail]
    cases firstFrom paramSpots? 0 written.line with
    | none => rfl
    | some spots =>
      obtain ⟨name, location, type, required⟩ := spots
      cases type <;> cases required <;> rfl

/-- The spans of a route, by their groups. -/
theorem router_eq (placed : field.IsPlacedIn spans written.line) {path : Text} {methods : List Text}
    (detail : field.detail = .router path methods) :
    spansNamed spans field.line "router_path".toList = ((firstFrom routeSpots? 0 written.line).map
        (·.1.span field.line .routePath)).toList ∧
      spansNamed spans field.line "router_method".toList = (((firstFrom routeSpots? 0 written.line).bind
        (·.2)).map (·.span field.line .routeMethods)).toList ∧
      ∀ span ∈ spansNamed spans field.line "router_path_var".toList, ∃ spots,
        firstFrom routeSpots? 0 written.line = some spots ∧
          ∃ part ∈ variablesFrom 0 spots.1.start spots.1.text,
            span = part.span field.line .routeVariable := by
  have picked : ∀ part : SpanGroup, part.isPart = true → _ := placed.part
  refine ⟨eq_toList_of_perm ((picked .routePath rfl).trans (.of_eq ?_)),
    eq_toList_of_perm ((picked .routeMethods rfl).trans (.of_eq ?_)), ?_⟩
  · rw [detailSpans, detail]
    cases firstFrom routeSpots? 0 written.line with
    | none => rfl
    | some spots =>
      obtain ⟨part, inBrackets⟩ := spots
      cases inBrackets <;> simp [Part.span, List.filter_append, List.filter_map]
  · rw [detailSpans, detail]
    cases firstFrom routeSpots? 0 written.line with
    | none => rfl
    | some spots =>
      obtain ⟨part, inBrackets⟩ := spots
      cases inBrackets <;> simp [Part.span, List.filter_append, List.filter_map]
  · intro span member
    have inside := (picked .routeVariable rfl).mem_iff.mp member
    rw [detailSpans, detail, List.mem_filter] at inside
    obtain ⟨listed, group⟩ := inside
    cases found : firstFrom routeSpots? 0 written.line with
    | none => simp [found] at listed
    | some spots =>
      obtain ⟨part, inBrackets⟩ := spots
      refine ⟨_, rfl, ?_⟩
      simp only [found, List.mem_append, List.mem_cons, List.mem_map, Option.mem_toList,
        Option.map_eq_some_iff] at listed
      rcases listed with (rfl | ⟨inner, known, rfl⟩) | ⟨_, -, rfl⟩
      · cases group
      · exact ⟨inner, known, rfl⟩
      · cases group

end Field.IsPlacedIn

section

variable {field : Field} {spans : List Span} {written : KeywordLine} {number : Int} {line : Text}

theorem map_textIn_toList {part : Option Part} (stand : ∀ spot ∈ part, spot.StandsIn line) (number : Int)
    (group : SpanGroup) : ((part.map (·.span number group)).toList).map (·.textIn line) =
      (part.map (·.text)).toList := by
  cases part with
  | none => rfl
  | some spot => simp [(stand spot rfl).textIn]

/-- Where no blank follows the keyword, what follows it is not found. -/
theorem KeywordLine.afterKeyword?_eq_none_of_gap (nonempty : written.rest ≠ []) (none : written.gap = []) :
    afterKeyword? written.keyword written.lead.length written.body = Option.none := by
  have lead : after? ('@' :: written.keyword.text)
      ('@' :: written.keyword.text ++ (written.rest ++ written.tail)) =
        some (written.rest ++ written.tail) := after?_append _ _
  rw [List.cons_append] at lead
  have stopped : blanks? (written.rest ++ written.tail) = Option.none :=
    run?_eq_none (written.starts.append nonempty)
  rw [body, none, List.nil_append]
  simp [afterKeyword?, lead, stopped]

namespace Field.IsPlacedIn

variable {name : Text} {group : SpanGroup}

/-- What stands where the rest of the line begins is next to the keyword. -/
theorem nextTo (placed : field.IsPlacedIn spans written.line) {part : Part}
    (shown : spansNamed spans field.line name = [part.span field.line group])
    (place : part.start = written.restPlace) :
    NextTo spans field.line ("keyword.".toList ++ field.keyword.kindText) name written.line := by
  obtain ⟨span, keyword, stop⟩ := placed.keyword_eq
  intro first before second after
  rw [keyword, List.mem_singleton] at before
  rw [shown, List.mem_singleton] at after
  have start : second.start.toNat = written.restPlace := by
    rw [after, ← place]
    rfl
  rw [before, stop, start]
  exact written.allBlank_to_restPlace

/-- What is not found at the `@` of the annotation is not next to the keyword. -/
theorem not_nextTo (placed : field.IsPlacedIn spans written.line) {α : Type}
    {scan : Nat → Text → Option α} (looks : LooksForSign scan)
    (none : scan written.lead.length written.body = none) {part : α → Part}
    (beyond : ∀ place text result, scan place text = some result → place < (part result).start)
    (shown : spansNamed spans field.line name =
      ((firstFrom scan 0 written.line).map fun found => (part found).span field.line group).toList)
    (some : spansNamed spans field.line name ≠ []) :
    ¬NextTo spans field.line ("keyword.".toList ++ field.keyword.kindText) name written.line := by
  obtain ⟨span, keyword, stop⟩ := placed.keyword_eq
  intro next
  cases found : firstFrom scan 0 written.line with
  | none =>
    rw [found] at shown
    exact some shown
  | some result =>
    rw [found] at shown
    have blank := next span (by rw [keyword]; exact List.mem_singleton.mpr rfl)
      ((part result).span field.line group) (by rw [shown]; exact List.mem_singleton.mpr rfl)
    rw [stop] at blank
    exact written.not_allBlank_of_later looks none found (fun place text => beyond place text result) blank

end Field.IsPlacedIn

/-! ### Parameters -/

section

variable {name location : Text} {type : Option Text} {required : Option Bool} {more : List Text}

/-- What is spelled of a parameter is found at the keyword's own `@`, so that blanks follow the keyword. -/
theorem ParamSpelled.gap_ne_nil
    (spelled : ParamSpelled spans field.line written.line name location type required)
    (placed : field.IsPlacedIn spans written.line) (keyword : written.keyword = field.keyword)
    (detail : field.detail = .param name location type required) (nonempty : written.rest ≠ []) :
    written.gap ≠ [] := by
  intro none
  have isParam : field.keyword = .param := Field.keyword_of_detail detail
  rw [isParam] at keyword
  have here : paramSpots? written.lead.length written.body = Option.none := by
    have begun := written.afterKeyword?_eq_none_of_gap nonempty none
    rw [keyword] at begun
    simp [paramSpots?, begun]
  refine placed.not_nextTo looksForSign_paramSpots? here (fun _ _ _ => lt_of_paramSpots?)
    (placed.param_eq detail).1 (spansNamed_ne_nil spelled.name) ?_
  rw [isParam]
  exact spelled.next

/-- Where blanks follow the keyword, the spans say what is read but for a quote in the type and a mark after
a truth value. -/
theorem paramSpelled_iff_of_apart (placed : field.IsPlacedIn spans written.line)
    (keyword : written.keyword = field.keyword) (apart : written.gap ≠ [])
    (listed : words (splitDescription written.rest).1 = name :: location :: more)
    (detail : field.detail = .param name location more.head? (more[1]?.bind flag?)) :
    ParamSpelled spans field.line written.line name location more.head? (more[1]?.bind flag?) ↔
      (∀ token ∈ more.head?, '"' ∉ token) ∧ ∀ token ∈ more[1]?, ¬FlagWithMark token := by
  have isParam : field.keyword = .param := Field.keyword_of_detail detail
  obtain ⟨names, locations, types, flags⟩ := placed.param_eq detail
  obtain ⟨spots, found, place, shown⟩ := written.exists_paramSpots (keyword.trans isParam) apart listed
  rw [found] at names locations types flags
  have typeTexts : textsNamed spans field.line "param_type".toList written.line =
      (more.head?.map (·.takeWhile (· ≠ '"'))).toList := by
    rw [textsNamed, types, Option.bind_some, map_textIn_toList shown.type.1, shown.type.2]
  have flagTexts : (∀ token ∈ more.head?, '"' ∉ token) →
      textsNamed spans field.line "param_required".toList written.line =
        (more[1]?.bind flagStart?).toList := by
    intro unquoted
    obtain ⟨stand, texts⟩ := shown.required unquoted
    rw [textsNamed, flags, Option.bind_some, map_textIn_toList stand, texts]
  constructor
  · intro spelled
    have unquoted : ∀ token ∈ more.head?, '"' ∉ token := by
      intro token member quote
      have same := typeTexts.symm.trans spelled.type
      rw [Option.mem_def.mp member] at same
      exact takeWhile_ne_of_mem quote (List.cons.inj same).1
    refine ⟨unquoted, fun token member marked => ?_⟩
    have same := (flagTexts unquoted).symm.trans spelled.required
    rw [Option.mem_def.mp member, Option.bind_some, Option.bind_some, marked.flag?_eq_none] at same
    exact marked.flagStart?_ne_none (Option.toList_eq_nil_iff.mp same)
  · rintro ⟨unquoted, clear⟩
    refine ⟨?_, ?_, ?_, ?_, ?_⟩
    · rw [textsNamed, names]
      simp [shown.name.1.textIn, shown.name.2]
    · rw [textsNamed, locations]
      simp [shown.location.1.textIn, shown.location.2]
    · rw [typeTexts]
      cases head : more.head? with
      | none => rfl
      | some token =>
        have whole := takeWhile_ne_of_not_mem (unquoted token head)
        rw [Option.map_some, whole]
    · rw [flagTexts unquoted]
      cases last : more[1]? with
      | none => rfl
      | some token =>
        rw [Option.bind_some, Option.bind_some, flagStart?_of_not_flagWithMark (clear token last)]
    · have next := placed.nextTo names place
      rwa [isParam] at next

/-- The spans of a parameter say what is read of it exactly if it is clear. -/
theorem paramSpelled_iff (placed : field.IsPlacedIn spans written.line)
    (keyword : written.keyword = field.keyword) (known : field.IsReadFrom written.rest)
    (detail : field.detail = .param name location type required) :
    ParamSpelled spans field.line written.line name location type required ↔
      KeywordApart .param written.line ∧ (∀ token ∈ type, '"' ∉ token) ∧
        ∀ token ∈ (words field.value)[3]?, ¬FlagWithMark token := by
  unfold Field.IsReadFrom at known
  rw [detail] at known
  obtain ⟨value, more, listed, rfl, rfl⟩ := known
  have nonempty : written.rest ≠ [] := by
    intro none
    rw [value, none] at listed
    cases listed
  have fourth : (words field.value)[3]? = more[1]? := by
    rw [listed]
    rfl
  have apart : KeywordApart .param written.line ↔ written.gap ≠ [] := by
    rw [← written.keywordApart_iff nonempty, keyword, Field.keyword_of_detail detail]
    rfl
  rw [value] at listed
  rw [fourth, apart]
  constructor
  · intro spelled
    have gap := spelled.gap_ne_nil placed keyword detail nonempty
    exact ⟨gap, (paramSpelled_iff_of_apart placed keyword gap listed detail).mp spelled⟩
  · rintro ⟨gap, clear⟩
    exact (paramSpelled_iff_of_apart placed keyword gap listed detail).mpr clear

end

/-! ### Routes -/

section

variable {path after : Text} {methods : List Text}

/-- What is spelled of a route is found at the keyword's own `@`, so that blanks follow the keyword and the
path has no bracket. -/
theorem RouteSpelled.clear (spelled : RouteSpelled spans field.line written.line path methods)
    (placed : field.IsPlacedIn spans written.line) (keyword : written.keyword = field.keyword)
    (detail : field.detail = .router path methods) (stands : WordStands written.rest [] path after) :
    written.gap ≠ [] ∧ '[' ∉ path := by
  have isRouter : field.keyword = .router := Field.keyword_of_detail detail
  have paths := (placed.router_eq detail).1
  have here : routeSpots? written.lead.length written.body ≠ none := by
    intro none
    refine placed.not_nextTo looksForSign_routeSpots? none (fun _ _ _ => lt_of_routeSpots?) paths
      (spansNamed_ne_nil spelled.path) ?_
    rw [isRouter]
    exact spelled.next
  have apart : written.gap ≠ [] := by
    intro none
    have begun := written.afterKeyword?_eq_none_of_gap stands.ne_nil none
    rw [keyword, isRouter] at begun
    exact here (by simp [routeSpots?, begun])
  obtain ⟨bracket, stops⟩ := written.routeSpots?_body (keyword.trans isRouter) apart stands
  refine ⟨apart, fun inside => ?_⟩
  obtain ⟨more, found, split, -⟩ := stops fun first => here (bracket first)
  rw [written.firstFrom_eq looksForSign_routeSpots? found] at paths
  have stand : Part.StandsIn ⟨written.restPlace, path.takeWhile (· ≠ '[')⟩ written.line :=
    written.standsIn [] _ split rfl
  have same := spelled.path
  rw [textsNamed, paths, Option.map_some, Option.toList_some, List.map_singleton, stand.textIn] at same
  exact takeWhile_ne_of_mem inside (List.cons.inj same).1

/-- Where blanks follow the keyword and the path has no bracket, the spans say what is read. -/
theorem routeSpelled_of_clear (placed : field.IsPlacedIn spans written.line)
    (keyword : written.keyword = field.keyword) (known : routeParts? written.rest = some (path, methods))
    (detail : field.detail = .router path methods) (apart : written.gap ≠ []) (unbracketed : '[' ∉ path) :
    RouteSpelled spans field.line written.line path methods := by
  have isRouter : field.keyword = .router := Field.keyword_of_detail detail
  obtain ⟨paths, lists, within⟩ := placed.router_eq detail
  obtain ⟨part, inBrackets, found, place, stand, text, listed⟩ :=
    written.exists_routeSpots (keyword.trans isRouter) apart known unbracketed
  rw [found] at paths lists
  refine ⟨?_, ?_, ?_, ?_⟩
  · rw [textsNamed, paths]
    simp [stand.textIn, text]
  · intro inner member
    obtain ⟨spots, same, spot, inside, rfl⟩ := within inner member
    obtain rfl := Option.some.inj (found.symm.trans same)
    obtain ⟨starts, -, stops⟩ := within_of_mem_variablesFrom inside
    refine ⟨_, by rw [paths]; exact List.mem_singleton.mpr rfl, ?_⟩
    simp only [Part.span] at starts stops ⊢
    omega
  · intro some
    obtain ⟨spot, inside, rfl, standsIn, brackets, pieces⟩ := listed some
    refine ⟨inside, ?_, pieces⟩
    rw [textsNamed, lists]
    simp [standsIn.textIn, brackets]
  · have next := placed.nextTo paths place
    rwa [isRouter] at next

/-- The spans of a route say what is read of it exactly if it is clear. -/
theorem routeSpelled_iff (placed : field.IsPlacedIn spans written.line)
    (keyword : written.keyword = field.keyword) (known : field.IsReadFrom written.rest)
    (detail : field.detail = .router path methods) :
    RouteSpelled spans field.line written.line path methods ↔
      KeywordApart .router written.line ∧ '[' ∉ path := by
  unfold Field.IsReadFrom at known
  rw [detail] at known
  obtain ⟨after, stands, -⟩ := exists_of_routeParts? known
  have apart : KeywordApart .router written.line ↔ written.gap ≠ [] := by
    rw [← written.keywordApart_iff stands.ne_nil, keyword, Field.keyword_of_detail detail]
    rfl
  rw [apart]
  exact ⟨fun spelled => spelled.clear placed keyword detail stands,
    fun ⟨gap, unbracketed⟩ => routeSpelled_of_clear placed keyword known detail gap unbracketed⟩

end

end

/-- Exactly the parameters and routes that are clear have the spans of what is read. -/
theorem highlight_spells_iff {marker : Text} {lines : List Text} {notes : List Note}
    (read : Note.ofLines marker lines = .ok notes) : ∃ spans, highlight marker lines = .ok spans ∧
      ∀ field ∈ notes.flatMap (·.fields), ∃ line, lineAt? lines field.line.toNat = some line ∧
        (field.IsSpelledIn spans line ↔ field.IsClear line) := by
  obtain ⟨spans, shown, fields, -⟩ := Note.exists_highlight_fields read
  refine ⟨spans, shown, fun field member => ?_⟩
  obtain ⟨line, found, made, placed⟩ := fields field member
  refine ⟨line, found, ?_⟩
  obtain ⟨written, rfl, keyword, -, known⟩ := Field.exists_keywordLine made
  unfold Field.IsSpelledIn Field.IsClear
  cases detail : field.detail with
  | param name location type required => exact paramSpelled_iff placed keyword known detail
  | router path methods => exact routeSpelled_iff placed keyword known detail
  | response | security | tag => exact Iff.rfl

def clearLines : List Text :=
  ["// godoc", "// @Param id path int true \"User ID\"",
    "// @Router /users/\x7bid\x7d [get, PUT]"].map String.toList

def clearNotes : List Note :=
  [⟨⟨1, 3⟩, [⟨2, .param "id".toList "path".toList (some "int".toList) (some true), "id path int true".toList,
      some "User ID".toList, []⟩,
    ⟨3, .router "/users/\x7bid\x7d".toList ["get".toList, "put".toList],
      "/users/\x7bid\x7d [get, PUT]".toList, none, []⟩]⟩]

theorem highlight_spells_iff_small : Note.ofLines defaultMarker clearLines = .ok clearNotes ∧
    ∃ spans, highlight defaultMarker clearLines = .ok spans ∧
      ∀ field ∈ clearNotes.flatMap (·.fields), ∃ line, lineAt? clearLines field.line.toNat = some line ∧
        (field.IsSpelledIn spans line ↔ field.IsClear line) := by
  have read : Note.ofLines defaultMarker clearLines = .ok clearNotes := by decide +kernel
  exact ⟨read, highlight_spells_iff read⟩

/-- A mark after a truth value, no blank after a keyword, a quote in a type and a bracket in a path. -/
def unclearLines : List Text :=
  ["// godoc", "// @Param id path int true, \"User ID\"", "// @Router/users [get]",
    "// @Param name query a\"b false", "// @Router /users[all]/names [get]"].map String.toList

/-- The first parameter is not known to be required, but a truth value is coloured. The first route has no
colour, and the second type and the second path are coloured in part. -/
theorem highlight_misspells :
    (Note.ofLines defaultMarker unclearLines).map (fun notes =>
        (notes.flatMap (·.fields)).map fun field => (field.line, field.detail)) =
      .ok [(2, .param "id".toList "path".toList (some "int".toList) none),
        (3, .router "/users".toList ["get".toList]),
        (4, .param "name".toList "query".toList (some "a\"b".toList) (some false)),
        (5, .router "/users[all]/names".toList ["get".toList])] ∧
    (highlight defaultMarker unclearLines).map (fun spans =>
        [("param_required".toList, 2), ("router_path".toList, 3), ("param_type".toList, 4),
          ("router_path".toList, 5)].map fun (name, number) =>
            textsNamed spans number name ((lineAt? unclearLines number.toNat).getD [])) =
      .ok [["true".toList], [], ["a".toList], ["/users".toList]] := by
  constructor <;> decide +kernel

end ApiNotes
