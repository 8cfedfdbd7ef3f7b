import ApiNotes.Proofs.Declarations
import ApiNotes.Note.Reading
import Mathlib.Data.List.Infix

/-!
# Names in a text

A search finds a piece just where it occurs (`Text.find?_isSome_iff`), the first time it does
(`Text.find?_append`), and the qualified names of a text occur in it. So every qualified name of a part of
a line is placed on the line, and only a part without such names has no references
(`referencesIn_eq_nil_iff`).
-/

namespace ApiNotes

namespace Text

variable {lead piece text name front back word rest owner member : Text} {c : Char}

theorem startsWith_iff : startsWith lead text = true ↔ lead <+: text := by
  rw [startsWith, Option.isSome_iff_exists]
  constructor
  · rintro ⟨rest, found⟩
    exact ⟨rest, (eq_append_of_after? found).symm⟩
  · rintro ⟨rest, rfl⟩
    exact ⟨rest, after?_append lead rest⟩

theorem endsWith_iff : endsWith piece text = true ↔ piece <:+ text := by
  rw [endsWith, startsWith_iff, List.reverse_prefix]

theorem findFrom_isSome_iff (place : Nat) :
    (findFrom piece place text).isSome = true ↔ piece <:+: text := by
  induction text generalizing place with
  | nil =>
    by_cases empty : piece = []
    · simp [findFrom, empty]
    · simp [findFrom, empty, List.infix_nil]
  | cons c text ih =>
    rw [findFrom, List.infix_cons_iff, ← startsWith_iff]
    cases startsWith piece (c :: text) with
    | true => simp
    | false => simpa using ih (place + 1)

theorem find?_isSome_iff : (find? piece text).isSome = true ↔ piece <:+: text :=
  findFrom_isSome_iff 0

theorem findFrom_add_one (place : Nat) (text : Text) :
    findFrom piece (place + 1) text = (findFrom piece place text).map (· + 1) := by
  induction text generalizing place with
  | nil =>
    rw [findFrom, findFrom]
    split_ifs <;> rfl
  | cons c text ih =>
    rw [findFrom, findFrom]
    split_ifs
    · rfl
    · exact ih (place + 1)

theorem find?_cons (c : Char) (text : Text) : find? piece (c :: text) =
    if startsWith piece (c :: text) then some 0 else (find? piece text).map (· + 1) := by
  rw [find?, findFrom, findFrom_add_one, find?]

/-- A piece without some character lies before or after it. -/
theorem isInfix_append_cons (absent : c ∉ piece) :
    piece <:+: front ++ c :: back ↔ piece <:+: front ∨ piece <:+: back := by
  constructor
  · rintro ⟨before, after, split⟩
    rcases List.append_eq_append_iff.mp split with ⟨tail, whole, -⟩ | ⟨tail, whole, rest⟩
    · exact .inl ⟨before, tail, whole.symm⟩
    · cases tail with
      | nil => exact .inl ⟨before, [], by simpa using whole⟩
      | cons d tail =>
        obtain ⟨rfl, rfl⟩ := List.cons.inj rest
        rcases List.append_eq_append_iff.mp whole with ⟨lead, -, equal⟩ | ⟨lead, -, equal⟩
        · exact absurd (by simp [equal]) absent
        · cases lead with
          | nil =>
            rw [List.nil_append] at equal
            exact absurd (equal ▸ List.mem_cons_self) absent
          | cons e lead =>
            obtain ⟨-, rfl⟩ := List.cons.inj equal
            exact .inr ⟨lead, after, rfl⟩
  · rintro (⟨before, after, rfl⟩ | ⟨before, after, rfl⟩)
    · exact ⟨before, after ++ c :: back, by simp⟩
    · exact ⟨front ++ c :: before, after, by simp⟩

/-- A piece at the beginning of a text ends before a character that it does not have. -/
theorem isPrefix_of_append_cons (absent : c ∉ piece) (starts : piece <+: front ++ c :: back) :
    piece <+: front := by
  have other : front ++ [c] <+: front ++ c :: back := ⟨back, by simp⟩
  rcases List.prefix_or_prefix_of_prefix starts other with short | long
  · rcases List.prefix_concat_iff.mp short with rfl | before
    · exact absurd (by simp) absent
    · exact before
  · exact absurd (long.subset (by simp)) absent

/-- A search passes over a text that does not hold the piece. -/
theorem findFrom_append (absent : c ∉ piece) (fresh : ¬piece <:+: front) (place : Nat) :
    findFrom piece place (front ++ c :: back) = findFrom piece (place + front.length + 1) back := by
  have nonempty : piece ≠ [] := fun empty => fresh (by simp [empty])
  induction front generalizing place with
  | nil =>
    have other : startsWith piece (c :: back) = false := by
      refine Bool.eq_false_iff.mpr fun starts => fresh ?_
      have before : piece <+: [] := isPrefix_of_append_cons absent (startsWith_iff.mp starts)
      exact before.isInfix
    rw [List.nil_append, findFrom, other]
    rfl
  | cons d front ih =>
    have other : startsWith piece (d :: (front ++ c :: back)) = false := by
      refine Bool.eq_false_iff.mpr fun starts => fresh ?_
      have before : piece <+: d :: front := isPrefix_of_append_cons absent (startsWith_iff.mp starts)
      exact before.isInfix
    rw [List.cons_append, findFrom, other, if_neg Bool.false_ne_true,
      ih (fun inside => fresh (List.infix_cons inside)), List.length_cons]
    congr 1
    omega

/-- A piece that stands after a text without it is found there. -/
theorem find?_append (nonempty : piece ≠ []) (absent : c ∉ piece) (fresh : ¬piece <:+: front) (rest : Text) :
    find? piece (front ++ c :: (piece ++ rest)) = some (front.length + 1) := by
  have here : startsWith piece (piece ++ rest) = true := startsWith_iff.mpr (List.prefix_append _ _)
  rw [find?, findFrom_append absent fresh]
  cases piece with
  | nil => exact absurd rfl nonempty
  | cons d piece =>
    rw [List.cons_append, findFrom, ← List.cons_append, here]
    simp

def Token.chars : Token → Text
  | .word run => run
  | .mark c => [c]

theorem tokens_cons_of_isWord (word : isWord c = true) (text : Text) :
    (∃ more later, tokens text = .word more :: later ∧ tokens (c :: text) = .word (c :: more) :: later) ∨
      tokens (c :: text) = .word [c] :: tokens text := by
  simp only [tokens, List.foldr_cons, word, if_true]
  split
  · rename_i more later same
    exact .inl ⟨more, later, same, rfl⟩
  · exact .inr rfl

theorem tokens_cons_of_not_isWord (other : isWord c = false) :
    tokens (c :: text) = .mark c :: tokens text := by
  simp [tokens, other]

/-- The tokens of a text make up the text. -/
theorem flatMap_tokens (text : Text) : (tokens text).flatMap Token.chars = text := by
  induction text with
  | nil => rfl
  | cons c text ih =>
    cases word : isWord c with
    | true =>
      obtain ⟨more, later, rest, here⟩ | here := tokens_cons_of_isWord word text
      · rw [rest] at ih
        rw [here, ← ih]
        rfl
      · rw [here, List.flatMap_cons, ih]
        rfl
    | false =>
      rw [tokens_cons_of_not_isWord word, List.flatMap_cons, ih]
      rfl

theorem isInfix_of_mem_qualifiedNamesOf {tokens : List Token}
    (member : name ∈ qualifiedNamesOf tokens) : name <:+: tokens.flatMap Token.chars := by
  fun_induction qualifiedNamesOf tokens with
  | case1 owner type later ih =>
    rcases List.mem_cons.mp member with rfl | inside
    · exact ⟨[], later.flatMap Token.chars, by simp [Token.chars]⟩
    · obtain ⟨before, after, split⟩ := ih inside
      refine ⟨owner ++ '.' :: type ++ before, after, ?_⟩
      simp [Token.chars, ← split]
  | case2 token later _ ih =>
    obtain ⟨before, after, split⟩ := ih member
    exact ⟨token.chars ++ before, after, by simp [← split]⟩
  | case3 => cases member

/-- The qualified names of a text occur in it. -/
theorem isInfix_of_mem_qualifiedNames (member : name ∈ qualifiedNames text) : name <:+: text := by
  have inside := isInfix_of_mem_qualifiedNamesOf member
  rwa [flatMap_tokens] at inside

/-- A character that belongs to no word has no part in the names after it. -/
theorem qualifiedNames_cons (other : isWord c = false) :
    qualifiedNames (c :: text) = qualifiedNames text := by
  rw [qualifiedNames, tokens_cons_of_not_isWord other, qualifiedNamesOf]
  · rfl
  · simp

theorem tokens_word (valid : IsWord word) (stops : ∀ c ∈ rest.head?, isWord c = false) :
    tokens (word ++ rest) = .word word :: tokens rest := by
  obtain ⟨nonempty, whole⟩ := valid
  induction word with
  | nil => exact absurd rfl nonempty
  | cons c word ih =>
    have first := whole c (by simp)
    cases word with
    | nil =>
      -- What comes after the last character is no word.
      cases rest with
      | nil => simp [tokens, first]
      | cons d rest =>
        have mark : tokens (d :: rest) = .mark d :: tokens rest := tokens_cons_of_not_isWord (stops d rfl)
        have step : tokens (c :: d :: rest) = .word [c] :: tokens (d :: rest) := by
          conv_lhs => rw [tokens, List.foldr_cons]
          rw [← tokens, mark]
          simp [first]
        exact step
    | cons d word =>
      have later := ih (by simp) fun e member => whole e (List.mem_cons_of_mem _ member)
      rw [List.cons_append, tokens, List.foldr_cons, ← tokens, later]
      simp [first]

/-- A word that no dot follows has no part in the names after it. -/
theorem qualifiedNames_word (valid : IsWord word) (stops : ∀ c ∈ rest.head?, isWord c = false)
    (undotted : rest.head? ≠ some '.') : qualifiedNames (word ++ rest) = qualifiedNames rest := by
  rw [qualifiedNames, tokens_word valid stops, qualifiedNames]
  cases rest with
  | nil => rfl
  | cons d rest =>
    have other : d ≠ '.' := fun dot => undotted (by rw [dot]; rfl)
    rw [tokens_cons_of_not_isWord (stops d rfl), qualifiedNamesOf]
    simp [other]

/-- A qualified name at the beginning of a text is the first of its names. -/
theorem qualifiedNames_name (owned : IsWord owner) (valid : IsWord member)
    (stops : ∀ c ∈ rest.head?, isWord c = false) :
    qualifiedNames (owner ++ '.' :: (member ++ rest)) = (owner ++ '.' :: member) :: qualifiedNames rest := by
  have dotted : ∀ c ∈ ('.' :: (member ++ rest)).head?, isWord c = false := by
    rintro c ⟨rfl⟩
    decide
  rw [qualifiedNames, tokens_word owned dotted, tokens_cons_of_not_isWord (by decide),
    tokens_word valid stops, qualifiedNamesOf]
  rfl

end Text

open Text

/-- A part of a line has references unless it has no qualified names. -/
theorem referencesIn_eq_nil_iff {line region : Text} (inside : region <:+: line) (origin : Origin)
    (number : Int) : referencesIn origin line number region = [] ↔ qualifiedNames region = [] := by
  rw [referencesIn, List.filterMap_eq_nil_iff]
  constructor
  · intro unplaced
    refine List.eq_nil_iff_forall_not_mem.mpr fun name member => ?_
    have placed := find?_isSome_iff.mpr ((isInfix_of_mem_qualifiedNames member).trans inside)
    obtain ⟨place, found⟩ := Option.isSome_iff_exists.mp placed
    have missing := unplaced name member
    simp [found] at missing
  · intro none name member
    rw [none] at member
    cases member

end ApiNotes
