import ApiNotes.Proofs.Grammar
import ApiNotes.Proofs.References

/-!
# Where the names of a text stand

A piece is found where it first occurs (`Text.find?_eq_some_iff`). A qualified name stands at a place of a
text if two words joined by a dot begin there, the second of which goes on as far as it can (`NameAt`). The
names of a text are those that a search from the left finds, each after the end of the one before;
`sightings` has them with their places, and nothing else is such a list (`leftmostNames_iff`).
-/

namespace ApiNotes

namespace Text

variable {text piece name : Text} {place start : Nat}

/-! ## Where a piece is found -/

theorem findFrom_eq_some_iff : findFrom piece start text = some place ↔
    ∃ skipped, place = start + skipped ∧ piece <+: text.drop skipped ∧
      ∀ earlier < skipped, ¬piece <+: text.drop earlier := by
  induction text generalizing start with
  | nil =>
    by_cases empty : piece = []
    · subst empty
      constructor
      · intro found
        exact ⟨0, by simpa [findFrom, eq_comm] using found, by simp, by simp⟩
      · rintro ⟨skipped, rfl, -, first⟩
        cases skipped with
        | zero => rfl
        | succ skipped => exact absurd (List.nil_prefix) (first 0 (by omega))
    · simp [findFrom, empty]
  | cons c text ih =>
    by_cases here : piece <+: c :: text
    · rw [findFrom, if_pos (startsWith_iff.mpr here)]
      constructor
      · intro found
        exact ⟨0, by simpa [eq_comm] using found, here, by simp⟩
      · rintro ⟨skipped, rfl, -, first⟩
        cases skipped with
        | zero => rfl
        | succ skipped => exact absurd here (first 0 (by omega))
    · rw [findFrom, if_neg (startsWith_iff.not.mpr here), ih]
      constructor
      · rintro ⟨skipped, rfl, stands, first⟩
        refine ⟨skipped + 1, by omega, stands, fun earlier before => ?_⟩
        cases earlier with
        | zero => exact here
        | succ earlier => exact first earlier (by omega)
      · rintro ⟨skipped, rfl, stands, first⟩
        cases skipped with
        | zero => exact absurd stands here
        | succ skipped =>
          exact ⟨skipped, by omega, stands, fun earlier before => first (earlier + 1) (by omega)⟩

theorem find?_eq_some_iff : find? piece text = some place ↔
    piece <+: text.drop place ∧ ∀ earlier < place, ¬piece <+: text.drop earlier := by
  simp [find?, findFrom_eq_some_iff]

/-! ## Names and their places -/

/-- A qualified name in a text, and how many characters precede it. -/
@[ext]
structure Sighting where
  place : Nat
  name : Text
  deriving DecidableEq

def Sighting.stop (sighting : Sighting) : Nat := sighting.place + sighting.name.length

/-- Two words joined by a dot begin at a place, and the second one ends where `name` does. -/
def NameAt (text : Text) (place : Nat) (name : Text) : Prop :=
  ∃ owner member rest, IsWord owner ∧ IsWord member ∧ (∀ c ∈ rest.head?, isWord c = false) ∧
    name = owner ++ '.' :: member ∧ text.drop place = name ++ rest

/-- The names that a search from `start` to the end of a text finds: each begins at or after the end of the
one before, and none begins outside them. -/
structure LeftmostNames (text : Text) (start : Nat) (found : List Sighting) : Prop where
  stands : ∀ sighting ∈ found, start ≤ sighting.place ∧ NameAt text sighting.place sighting.name
  apart : found.Pairwise fun a b => a.stop ≤ b.place
  complete : ∀ place, start ≤ place → ∀ name, NameAt text place name →
    ∃ sighting ∈ found, sighting.place ≤ place ∧ place < sighting.stop

theorem stops_at_dot (text : Text) : ∀ c ∈ ('.' :: text).head?, isWord c = false := by
  rintro c ⟨rfl⟩
  decide

theorem NameAt.ne_nil (named : NameAt text place name) : name ≠ [] := by
  obtain ⟨owner, member, rest, -, -, -, rfl, -⟩ := named
  simp

theorem NameAt.unique {other : Text} (named : NameAt text place name) (again : NameAt text place other) :
    name = other := by
  obtain ⟨owner, member, rest, owned, valid, stops, rfl, split⟩ := named
  obtain ⟨first, second, tail, firstValid, secondValid, tailStops, rfl, same⟩ := again
  have begins : owner ++ '.' :: (member ++ rest) = first ++ '.' :: (second ++ tail) := by
    simpa using split.symm.trans same
  obtain ⟨rfl, onward⟩ := word_append_inj owned firstValid (stops_at_dot _) (stops_at_dot _) begins
  obtain ⟨rfl, -⟩ := word_append_inj valid secondValid stops tailStops (List.cons.inj onward).2
  rfl

theorem NameAt.isPrefix (named : NameAt text place name) : name <+: text.drop place := by
  obtain ⟨owner, member, rest, -, -, -, -, split⟩ := named
  exact ⟨rest, split.symm⟩

namespace LeftmostNames

variable {found : List Sighting} {next : Nat}

theorem cons (named : NameAt text start name) (later : LeftmostNames text (start + name.length) found) :
    LeftmostNames text start (⟨start, name⟩ :: found) where
  stands := by
    refine List.forall_mem_cons.mpr ⟨⟨Nat.le_refl _, named⟩, fun sighting member => ?_⟩
    obtain ⟨beyond, stands⟩ := later.stands sighting member
    exact ⟨by omega, stands⟩
  apart := List.pairwise_cons.mpr ⟨fun other member => (later.stands other member).1, later.apart⟩
  complete := by
    intro place lower other stands
    by_cases inside : place < start + name.length
    · exact ⟨_, List.mem_cons_self, lower, inside⟩
    · obtain ⟨sighting, member, covers⟩ := later.complete place (by omega) other stands
      exact ⟨sighting, List.mem_cons_of_mem _ member, covers⟩

/-- Places at which no name begins are passed over. -/
theorem skip (beyond : start ≤ next)
    (none : ∀ place, start ≤ place → place < next → ∀ name, ¬NameAt text place name)
    (later : LeftmostNames text next found) : LeftmostNames text start found where
  stands := by
    intro sighting member
    obtain ⟨lower, stands⟩ := later.stands sighting member
    exact ⟨by omega, stands⟩
  apart := later.apart
  complete := by
    intro place lower name stands
    by_cases before : place < next
    · exact absurd stands (none place lower before name)
    · exact later.complete place (by omega) name stands

theorem tail {sighting : Sighting} (names : LeftmostNames text start (sighting :: found)) :
    LeftmostNames text sighting.stop found where
  stands := fun other member =>
    ⟨(List.pairwise_cons.mp names.apart).1 other member,
      (names.stands other (List.mem_cons_of_mem _ member)).2⟩
  apart := (List.pairwise_cons.mp names.apart).2
  complete := by
    intro place lower name named
    have first := (names.stands sighting List.mem_cons_self).1
    have beyond : start ≤ place := by
      unfold Sighting.stop at lower
      omega
    obtain ⟨other, member, begins, upTo⟩ := names.complete place beyond name named
    rcases List.mem_cons.mp member with rfl | inside
    · omega
    · exact ⟨other, inside, begins, upTo⟩

/-- No name begins before the first one that is found. -/
theorem place_le {sighting : Sighting} (names : LeftmostNames text start (sighting :: found))
    (lower : start ≤ place) (named : NameAt text place name) : sighting.place ≤ place := by
  obtain ⟨other, member, begins, -⟩ := names.complete place lower name named
  rcases List.mem_cons.mp member with rfl | later
  · exact begins
  · have after := (names.tail.stands other later).1
    unfold Sighting.stop at after
    omega

theorem unique {others : List Sighting} (names : LeftmostNames text start found)
    (again : LeftmostNames text start others) : found = others := by
  induction found generalizing start others with
  | nil =>
    cases others with
    | nil => rfl
    | cons other others =>
      obtain ⟨lower, named⟩ := again.stands other List.mem_cons_self
      obtain ⟨_, member, -⟩ := names.complete _ lower _ named
      cases member
  | cons sighting found ih =>
    obtain ⟨lower, named⟩ := names.stands sighting List.mem_cons_self
    cases others with
    | nil =>
      obtain ⟨_, member, -⟩ := again.complete _ lower _ named
      cases member
    | cons other others =>
      obtain ⟨otherLower, otherNamed⟩ := again.stands other List.mem_cons_self
      -- Neither search passes over the first name of the other, so both begin with the same one.
      have place : sighting.place = other.place :=
        Nat.le_antisymm (names.place_le otherLower otherNamed) (again.place_le lower named)
      have name : sighting.name = other.name := named.unique (place ▸ otherNamed)
      obtain rfl : sighting = other := Sighting.ext place name
      rw [ih names.tail again.tail]

end LeftmostNames

/-! ## The names among the tokens of a text -/

/-- The qualified names among tokens that begin at `place`. -/
def sightingsOf (place : Nat) : List Token → List Sighting
  | .word owner :: .mark '.' :: .word member :: later =>
    ⟨place, owner ++ '.' :: member⟩ ::
      sightingsOf (place + (owner ++ '.' :: member).length) later
  | token :: later => sightingsOf (place + token.chars.length) later
  | [] => []

/-- The qualified names in a text, from left to right, with their places. -/
def sightings (text : Text) : List Sighting := sightingsOf 0 (tokens text)

theorem map_name_sightingsOf (place : Nat) (tokens : List Token) :
    (sightingsOf place tokens).map (·.name) = qualifiedNamesOf tokens := by
  fun_induction sightingsOf place tokens with
  | case1 place owner member later ih => rw [List.map_cons, ih, qualifiedNamesOf]
  | case2 place token later other ih => rw [ih, qualifiedNamesOf]; exact other
  | case3 => rfl

theorem map_name_sightings (text : Text) : (sightings text).map (·.name) = qualifiedNames text :=
  map_name_sightingsOf 0 (tokens text)

/-- Tokens as a text is divided into them: the words are as long as they can be. -/
def IsProper : List Token → Prop
  | .word run :: later =>
    IsWord run ∧ (∀ c ∈ (later.flatMap Token.chars).head?, isWord c = false) ∧ IsProper later
  | .mark c :: later => isWord c = false ∧ IsProper later
  | [] => True

theorem isProper_tokens (text : Text) : IsProper (tokens text) := by
  induction size : text.length using Nat.strong_induction_on generalizing text with
  | _ size ih =>
    subst size
    cases text with
    | nil => trivial
    | cons c text =>
      cases word : isWord c with
      | false =>
        rw [tokens_cons_of_not_isWord word]
        exact ⟨word, ih _ (by simp) text rfl⟩
      | true =>
        have split : (c :: text).takeWhile isWord ++ (c :: text).dropWhile isWord = c :: text :=
          List.takeWhile_append_dropWhile
        have run : IsWord ((c :: text).takeWhile isWord) :=
          ⟨by simp [word], fun d member => List.mem_takeWhile_imp member⟩
        have stops : ∀ d ∈ ((c :: text).dropWhile isWord).head?, isWord d = false := by
          intro d first
          have stopped := List.head?_dropWhile_not isWord (c :: text)
          rw [Option.mem_def.mp first] at stopped
          simpa using stopped
        have shorter : ((c :: text).dropWhile isWord).length < (c :: text).length := by
          have total := congrArg List.length split
          have positive := List.length_pos_iff.mpr run.1
          rw [List.length_append] at total
          omega
        rw [← split, tokens_word run stops]
        exact ⟨run, by rwa [flatMap_tokens], ih _ shorter _ rfl⟩

theorem IsProper.exists_mark {tokens : List Token} {c : Char} {rest : Text} (proper : IsProper tokens)
    (mark : isWord c = false) (starts : tokens.flatMap Token.chars = c :: rest) :
    ∃ later, tokens = .mark c :: later ∧ IsProper later ∧ later.flatMap Token.chars = rest := by
  cases tokens with
  | nil => cases starts
  | cons token later =>
    cases token with
    | mark d =>
      obtain ⟨rfl, same⟩ := List.cons.inj starts
      exact ⟨later, rfl, proper.2, same⟩
    | word run =>
      obtain ⟨d, run, rfl⟩ := List.exists_cons_of_ne_nil proper.1.1
      obtain rfl : d = c := (List.cons.inj starts).1
      rw [proper.1.2 d List.mem_cons_self] at mark
      cases mark

theorem IsProper.exists_word {tokens : List Token} {c : Char} {rest : Text} (proper : IsProper tokens)
    (word : isWord c = true) (starts : tokens.flatMap Token.chars = c :: rest) :
    ∃ run later, tokens = .word run :: later := by
  cases tokens with
  | nil => cases starts
  | cons token later =>
    cases token with
    | mark d =>
      obtain rfl : d = c := (List.cons.inj starts).1
      rw [proper.1] at word
      cases word
    | word run => exact ⟨run, later, rfl⟩

/-- No name begins in a token, unless that is a word with a dot and another word after it. -/
theorem not_nameAt_token {lead : Text} {token : Token} {later : List Token}
    (proper : IsProper (token :: later))
    (other : ∀ owner member rest, token = .word owner → later = .mark '.' :: .word member :: rest → False)
    (lower : lead.length ≤ place) (upper : place < lead.length + token.chars.length) (name : Text) :
    ¬NameAt (lead ++ (token :: later).flatMap Token.chars) place name := by
  rintro ⟨owner, member, rest, owned, valid, -, rfl, split⟩
  obtain ⟨skipped, rfl⟩ := Nat.exists_eq_add_of_le lower
  rw [List.drop_append, List.flatMap_cons, List.drop_of_length_le (by omega), List.nil_append,
    Nat.add_sub_cancel_left, List.drop_append_of_le_length (by omega), List.append_assoc] at split
  obtain ⟨first, others, rfl⟩ := List.exists_cons_of_ne_nil owned.1
  cases token with
  | mark c =>
    obtain rfl : skipped = 0 := by
      simp only [Token.chars, List.length_singleton] at upper
      omega
    obtain rfl : c = first := (List.cons.inj split).1
    have mark := proper.1
    rw [owned.2 c List.mem_cons_self] at mark
    cases mark
  | word run =>
    obtain ⟨word, ends, proper⟩ := proper
    have onward : IsWord (run.drop skipped) := by
      refine ⟨fun none => ?_, fun c inside => word.2 c (List.mem_of_mem_drop inside)⟩
      have short := List.drop_eq_nil_iff.mp none
      simp only [Token.chars] at upper
      omega
    -- Both words go on up to a character that belongs to none, so they end together.
    obtain ⟨-, follows⟩ := word_append_inj onward owned ends (stops_at_dot (member ++ rest)) split
    obtain ⟨after, rfl, properAfter, next⟩ := proper.exists_mark (by decide) follows
    obtain ⟨c, tail, rfl⟩ := List.exists_cons_of_ne_nil valid.1
    obtain ⟨last, further, rfl⟩ := properAfter.exists_word (valid.2 c List.mem_cons_self) next
    exact other run last further rfl rfl

/-- The names among the tokens of a text are those that a search finds in it. -/
theorem leftmostNames_sightingsOf {tokens : List Token} (proper : IsProper tokens) (lead : Text) :
    LeftmostNames (lead ++ tokens.flatMap Token.chars) lead.length (sightingsOf lead.length tokens) := by
  induction size : tokens.length using Nat.strong_induction_on generalizing tokens lead with
  | _ size ih =>
    subst size
    unfold sightingsOf
    split
    · rename_i owner member later
      obtain ⟨owned, -, -, valid, stops, rest⟩ := proper
      have after := ih later.length (by simp; omega) rest (lead ++ (owner ++ '.' :: member)) rfl
      have same : lead ++ (owner ++ '.' :: member) ++ later.flatMap Token.chars =
          lead ++ (Token.word owner :: .mark '.' :: .word member :: later).flatMap Token.chars := by
        simp [Token.chars]
      rw [same, List.length_append] at after
      refine .cons ⟨owner, member, later.flatMap Token.chars, owned, valid, stops, rfl, ?_⟩ after
      simp [Token.chars]
    · rename_i token later other
      have rest : IsProper later := by
        cases token with
        | word run => exact proper.2.2
        | mark c => exact proper.2
      have after := ih later.length (by simp) rest (lead ++ token.chars) rfl
      rw [List.append_assoc, ← List.flatMap_cons, List.length_append] at after
      exact .skip (Nat.le_add_right _ _)
        (fun place lower upper => not_nameAt_token proper other lower upper) after
    · refine ⟨by simp, .nil, fun place lower name stands => ?_⟩
      have nothing : (lead ++ [].flatMap Token.chars).drop place = [] :=
        List.drop_of_length_le (by simpa using lower)
      have short := stands.isPrefix
      rw [nothing, List.prefix_nil] at short
      exact absurd short stands.ne_nil

theorem leftmostNames_sightings (text : Text) : LeftmostNames text 0 (sightings text) := by
  have found := leftmostNames_sightingsOf (isProper_tokens text) []
  rwa [flatMap_tokens] at found

/-- The names of a text are what a search from its beginning finds. -/
theorem leftmostNames_iff {found : List Sighting} : LeftmostNames text 0 found ↔ found = sightings text := by
  constructor
  · exact fun names => names.unique (leftmostNames_sightings text)
  · rintro rfl
    exact leftmostNames_sightings text

end Text

end ApiNotes
