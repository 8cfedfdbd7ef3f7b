import ApiNotes.Proofs.Declarations
import ApiNotes.Proofs.Spacing

/-!
# The grammar of an annotation line

What each reader of a part of a line accepts, as the texts that it takes apart: the slashes, the `@`,
the keyword and the rest (`keywordAndRest?_eq_some_iff`), and the status and braces of an outcome
(`responseParts?_eq_some_iff`).
-/

namespace ApiNotes

open Text

section

variable {line text rest word body digits object more : Text}

/-! ## Comments and annotations -/

theorem commentText?_eq_some_iff : commentText? line = some text ↔
    ∃ indent, AllBlank indent ∧ line = indent ++ '/' :: '/' :: text := by
  constructor
  · intro found
    obtain ⟨indent, blank, split⟩ := exists_trimLeft line
    rw [eq_append_of_after? found] at split
    exact ⟨indent, blank, split⟩
  · rintro ⟨indent, blank, rfl⟩
    have slashes : trimLeft ('/' :: '/' :: text) = ['/', '/'] ++ text := rfl
    rw [commentText?, trimLeft_append blank, slashes, after?_append]

theorem annotationText?_eq_some_iff : annotationText? line = some text ↔
    ∃ indent inset, AllBlank indent ∧ AllBlank inset ∧
      line = indent ++ '/' :: '/' :: (inset ++ '@' :: text) := by
  constructor
  · intro found
    rw [annotationText?] at found
    split at found
    · rename_i after trimmed
      obtain ⟨comment, read, same⟩ := Option.map_eq_some_iff.mp trimmed
      obtain ⟨indent, blank, rfl⟩ := commentText?_eq_some_iff.mp read
      obtain ⟨inset, insetBlank, split⟩ := exists_trimLeft comment
      rw [same] at split
      cases found
      exact ⟨indent, inset, blank, insetBlank, by rw [split]⟩
    · cases found
  · rintro ⟨indent, inset, blank, insetBlank, rfl⟩
    have sign : trimLeft ('@' :: text) = '@' :: text := rfl
    rw [annotationText?, commentText?_eq_some_iff.mpr ⟨indent, blank, rfl⟩, Option.map_some,
      trimLeft_append insetBlank, sign]
    rfl

theorem Text.IsWord.startsFirm (valid : IsWord word) : StartsFirm word :=
  startsFirm_of_forall fun c member => isBlank_of_isWord (valid.2 c member)

theorem Text.IsWord.endsFirm (valid : IsWord word) : EndsFirm word :=
  endsFirm_of_forall fun c member => isBlank_of_isWord (valid.2 c member)

theorem word?_eq_some_iff : word? text = some (word, rest) ↔
    IsWord word ∧ (∀ c ∈ rest.head?, isWord c = false) ∧ text = word ++ rest := by
  constructor
  · intro found
    refine ⟨isWord_of_word? found, ?_⟩
    unfold word? at found
    split at found
    · cases found
    · rename_i c tail taken
      obtain ⟨rfl, rfl⟩ : c :: tail = word ∧ text.dropWhile isWord = rest := by simpa using found
      refine ⟨fun d first => ?_, by rw [← taken, List.takeWhile_append_dropWhile]⟩
      cases left : text.dropWhile isWord with
      | nil =>
        rw [left] at first
        cases first
      | cons e left' =>
        obtain rfl : e = d := by simpa [left] using first
        have stopped := List.head?_dropWhile_not isWord text
        simpa [left] using stopped
  · rintro ⟨⟨nonempty, whole⟩, stops, rfl⟩
    obtain ⟨c, tail, same⟩ := List.exists_cons_of_ne_nil nonempty
    rw [word?, takeWhile_append_stop whole stops, dropWhile_append_stop whole stops, same]

/-- A text begins with one word only, if that goes on as far as it can. -/
theorem word_append_inj {other tail : Text} (valid : IsWord word) (otherValid : IsWord other)
    (stops : ∀ c ∈ rest.head?, isWord c = false) (tailStops : ∀ c ∈ tail.head?, isWord c = false)
    (same : word ++ rest = other ++ tail) : word = other ∧ rest = tail := by
  have left : word? (word ++ rest) = some (word, rest) := word?_eq_some_iff.mpr ⟨valid, stops, rfl⟩
  have right : word? (other ++ tail) = some (other, tail) :=
    word?_eq_some_iff.mpr ⟨otherValid, tailStops, rfl⟩
  rw [same, right] at left
  simpa [eq_comm] using left

theorem map_trimRight_singleLine? (text : Text) : (singleLine? text).map trimRight =
    if '\n' ∈ text.dropLast then none else some (trimRight text) := by
  rcases List.eq_nil_or_concat text with rfl | ⟨front, last, rfl⟩
  · rfl
  · by_cases broken : last = '\n'
    · subst broken
      have whole : trimRight (front ++ ['\n']) = trimRight front :=
        trimRight_append (List.forall_mem_singleton.mpr (by decide)) front
      by_cases inside : '\n' ∈ front <;> simp [singleLine?, inside, whole]
    · by_cases inside : '\n' ∈ front <;> simp [singleLine?, inside, broken, Ne.symm broken]

/-- A keyword and the rest of its line. Blanks before the rest may break the line; after that a line
break may only end it. -/
theorem keywordAndRest?_eq_some_iff : keywordAndRest? line = some (word, rest) ↔
    IsWord word ∧ StartsFirm rest ∧ EndsFirm rest ∧
      ∃ indent inset gap tail, AllBlank indent ∧ AllBlank inset ∧ AllBlank gap ∧ AllBlank tail ∧
        (∀ c ∈ (gap ++ rest).head?, isWord c = false) ∧ '\n' ∉ (rest ++ tail).dropLast ∧
        line = indent ++ '/' :: '/' :: (inset ++ '@' :: (word ++ (gap ++ (rest ++ tail)))) := by
  constructor
  · intro found
    simp only [keywordAndRest?, bind, Option.bind_eq_some_iff] at found
    obtain ⟨text, annotated, ⟨first, after⟩, read, body, single, same⟩ := found
    obtain ⟨rfl, rfl⟩ : first = word ∧ trimRight body = rest := by simpa using same
    obtain ⟨indent, inset, blank, insetBlank, rfl⟩ := annotationText?_eq_some_iff.mp annotated
    obtain ⟨valid, stops, rfl⟩ := word?_eq_some_iff.mp read
    have whole := map_trimRight_singleLine? (trimLeft after)
    rw [single, Option.map_some] at whole
    split_ifs at whole with broken
    rw [Option.some.inj whole]
    obtain ⟨gap, gapBlank, gapSplit⟩ := exists_trimLeft after
    obtain ⟨tail, tailBlank, tailSplit⟩ := exists_trimRight (trimLeft after)
    refine ⟨valid, ?_, endsFirm_trimRight _, indent, inset, gap, tail, blank, insetBlank, gapBlank,
      tailBlank, ?_, ?_, ?_⟩
    · have starts := startsFirm_trimLeft after
      rw [tailSplit] at starts
      exact fun c first => starts c (List.mem_head?_append_of_mem_head? first)
    · rw [gapSplit, tailSplit, ← List.append_assoc] at stops
      exact fun c first => stops c (List.mem_head?_append_of_mem_head? first)
    · rwa [← tailSplit]
    · rw [← tailSplit, ← gapSplit]
  · rintro ⟨valid, starts, ends, indent, inset, gap, tail, blank, insetBlank, gapBlank, tailBlank, stops,
      oneLine, rfl⟩
    have afterWord : ∀ c ∈ (gap ++ (rest ++ tail)).head?, isWord c = false := by
      intro c first
      rw [← List.append_assoc, List.head?_append] at first
      cases front : (gap ++ rest).head? with
      | some d => exact stops c (by simpa [front] using first)
      | none => exact isWord_of_isBlank (tailBlank c (List.mem_of_mem_head? (by simpa [front] using first)))
    have read : annotationText?
        (indent ++ '/' :: '/' :: (inset ++ '@' :: (word ++ (gap ++ (rest ++ tail))))) =
        some (word ++ (gap ++ (rest ++ tail))) :=
      annotationText?_eq_some_iff.mpr ⟨indent, inset, blank, insetBlank, rfl⟩
    have first : word? (word ++ (gap ++ (rest ++ tail))) = some (word, gap ++ (rest ++ tail)) :=
      word?_eq_some_iff.mpr ⟨valid, afterWord, rfl⟩
    have trimmed : (singleLine? (trimLeft (gap ++ (rest ++ tail)))).map trimRight = some rest := by
      rw [trimLeft_append gapBlank, map_trimRight_singleLine?]
      -- Where there is no rest, the blanks after it are taken away with those before it.
      by_cases empty : rest = []
      · have nothing : trimLeft tail = [] := List.dropWhile_eq_nil_iff.mpr tailBlank
        simp [empty, nothing, trimRight]
      · rw [(starts.append empty).trimLeft, if_neg oneLine, trimRight_append tailBlank, ends.trimRight]
    obtain ⟨body, single, same⟩ := Option.map_eq_some_iff.mp trimmed
    simp [keywordAndRest?, read, first, single, same]

/-! ## Keywords -/

theorem Keyword.isWord_text (keyword : Keyword) : IsWord keyword.text := by
  rcases keyword with (_ | _) | _ | _ | _ | (_ | _ | _ | _ | _) <;>
    exact ⟨by decide, List.all_eq_true.mp (by decide)⟩

theorem Keyword.ofText?_text (keyword : Keyword) : ofText? keyword.text = some keyword := by
  rcases keyword with (_ | _) | _ | _ | _ | (_ | _ | _ | _ | _) <;> decide

theorem Keyword.ofText?_eq_some_iff {keyword : Keyword} :
    ofText? word = some keyword ↔ keyword.text = word := by
  constructor
  · intro found
    simpa using List.find?_some found
  · rintro rfl
    exact ofText?_text keyword

/-! ## The status of an outcome -/

theorem responseParts?_eq_some_iff : responseParts? text = some (digits, object, more) ↔
    digits ≠ [] ∧ (∀ c ∈ digits, isDigit c = true) ∧ object ≠ [] ∧ '}' ∉ object ∧
      ∃ gap, gap ≠ [] ∧ AllBlank gap ∧ text = digits ++ (gap ++ '{' :: (object ++ '}' :: more)) := by
  constructor
  · intro found
    simp only [responseParts?, bind, Option.bind_eq_some_iff, guard] at found
    obtain ⟨_, nonempty, after, blanks, found⟩ := found
    obtain ⟨-, gap, apart, blank, split⟩ := afterBlanks?_eq_some_iff.mp blanks
    split at found
    · rename_i inside
      obtain ⟨_, filled, found⟩ := Option.bind_eq_some_iff.mp found
      split at found
      · rename_i after closing
        cases found
        refine ⟨fun none => ?_, fun c member => List.mem_takeWhile_imp member, fun none => ?_,
          fun closed => ?_, gap, apart, blank, ?_⟩
        · rw [if_neg (not_not.mpr none)] at nonempty
          cases nonempty
        · rw [if_neg (not_not.mpr none)] at filled
          cases filled
        · simpa using List.mem_takeWhile_imp closed
        · rw [← closing, List.takeWhile_append_dropWhile, ← split, List.takeWhile_append_dropWhile]
      · cases found
    · cases found
  · rintro ⟨nonempty, decimal, filled, unclosed, gap, apart, blank, rfl⟩
    have stops : ∀ c ∈ (gap ++ '{' :: (object ++ '}' :: more)).head?, isDigit c = false :=
      stops_at_gap blank apart (fun _ => isDigit_of_isBlank) _
    have brace : trimLeft ('{' :: (object ++ '}' :: more)) = '{' :: (object ++ '}' :: more) := rfl
    unfold responseParts?
    rw [takeWhile_append_stop decimal stops, dropWhile_append_stop decimal stops,
      afterBlanks?_append blank apart, brace]
    simp only [nonempty, takeWhile_ne_append unclosed, dropWhile_ne_append unclosed, filled, ne_eq,
      not_false_eq_true, guard, if_true, bind, Option.bind, pure]

end

end ApiNotes
