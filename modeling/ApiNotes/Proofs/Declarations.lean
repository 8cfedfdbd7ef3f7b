import ApiNotes.Proofs.Tables
import Mathlib.Data.List.TakeWhile

/-!
# Declarations and their names

The type declarations of a file start on ascending lines (`Go.typesOf_ascending`), so the name,
line and kind of a declaration tell it from all others of its file. Packages and types are named
by words, in which there is no dot; a qualified name therefore spells exactly one package and
type (`GoFile.qualify_inj`).
-/

namespace ApiNotes

namespace Text

def IsWord (text : Text) : Prop := text ≠ [] ∧ ∀ c ∈ text, isWord c = true

theorem isWord_of_word? {text word rest : Text} (found : word? text = some (word, rest)) :
    IsWord word := by
  unfold word? at found
  split at found
  · simp at found
  · rename_i c more taken
    obtain ⟨rfl, -⟩ : c :: more = word ∧ _ := by simpa using found
    refine ⟨by simp, fun d member => ?_⟩
    rw [← taken] at member
    exact List.mem_takeWhile_imp member

theorem IsWord.no_dot {word : Text} (valid : IsWord word) : '.' ∉ word := by
  intro dot
  have impossible := valid.2 '.' dot
  revert impossible
  decide

end Text

namespace Go

theorem isWord_package : Text.IsWord "package".toList := ⟨by decide, List.all_eq_true.mp (by decide)⟩

theorem isWord_import : Text.IsWord "import".toList := ⟨by decide, List.all_eq_true.mp (by decide)⟩

theorem isWord_type : Text.IsWord "type".toList := ⟨by decide, List.all_eq_true.mp (by decide)⟩

theorem isWord_of_typeSpec? {spec name : Text} {kind : TypeKind}
    (found : typeSpec? spec = some (name, kind)) : Text.IsWord name := by
  unfold typeSpec? at found
  simp only [bind, Option.bind_eq_some_iff] at found
  obtain ⟨⟨word, rest⟩, read, kept⟩ := found
  split at kept
  · simp at kept
  · obtain ⟨rfl, -⟩ : word = name ∧ _ := by simpa using kept
    exact Text.isWord_of_word? read

/-- A declaration starts on the line on which it is looked for, and is named by a word. -/
theorem typeDecl?_spec {spec : Text} {number : Nat} {lines : List Text} {decl : TypeDecl}
    (found : typeDecl? spec number lines = some decl) :
    decl.first = number ∧ Text.IsWord decl.name := by
  simp only [typeDecl?, Option.map_eq_some_iff] at found
  obtain ⟨⟨name, kind⟩, read, rfl⟩ := found
  exact ⟨rfl, isWord_of_typeSpec? read⟩

/-- Declarations that start no earlier than a line, in ascending order, and named by words. -/
def Ascending (number : Nat) (decls : List TypeDecl) : Prop :=
  decls.Pairwise (fun a b => a.first < b.first) ∧
    ∀ decl ∈ decls, number ≤ decl.first ∧ Text.IsWord decl.name

theorem Ascending.later {number : Nat} {decls : List TypeDecl} (ascending : Ascending (number + 1) decls) :
    Ascending number decls :=
  ⟨ascending.1, fun decl member => ⟨by have := (ascending.2 decl member).1; omega,
    (ascending.2 decl member).2⟩⟩

theorem typesFrom_ascending (grouped : Bool) (skip number : Nat) (lines : List Text) :
    Ascending number (typesFrom grouped skip number lines) := by
  induction lines generalizing grouped skip number with
  | nil => exact ⟨by simp [typesFrom], by simp [typesFrom]⟩
  | cons line rest ih =>
    cases skip with
    | succ skip =>
      rw [typesFrom]
      exact (ih grouped skip (number + 1)).later
    | zero =>
      rw [typesFrom]
      split_ifs with closes opens
      · exact (ih false 0 (number + 1)).later
      · exact (ih true 0 (number + 1)).later
      · split
        · rename_i decl found
          obtain ⟨spec, -, read⟩ := Option.bind_eq_some_iff.mp found
          obtain ⟨starts, named⟩ := typeDecl?_spec read
          have later := ih grouped (decl.last - decl.first) (number + 1)
          refine ⟨List.pairwise_cons.mpr ⟨fun other member => ?_, later.1⟩, fun other member => ?_⟩
          · have below := (later.2 other member).1
            omega
          · rcases List.mem_cons.mp member with rfl | inside
            · exact ⟨by omega, named⟩
            · exact later.later.2 other inside
        · exact (ih grouped 0 (number + 1)).later

/-- The declarations of a file start on ascending lines. -/
theorem typesOf_ascending (lines : List Text) : Ascending 1 (typesOf lines) :=
  typesFrom_ascending false 0 1 lines

theorem isWord_of_packageOf? {lines : List Text} {package : Text}
    (found : packageOf? lines = some package) : Text.IsWord package := by
  obtain ⟨line, -, read⟩ := List.exists_of_findSome?_eq_some found
  simp only [packageOfLine?, Option.map_eq_some_iff, Option.bind_eq_some_iff] at read
  obtain ⟨⟨word, rest⟩, ⟨text, -, taken⟩, rfl⟩ := read
  exact Text.isWord_of_word? taken

end Go

namespace GoFile

/-- What every file that was read from a text has in common. -/
structure Sound (path : Text) (file : GoFile) : Prop where
  name : file.name = path
  types : Go.Ascending 1 file.types
  package : ∀ package, file.package = some package → Text.IsWord package

theorem sound_of_ofSource {path marker text : Text} {file : GoFile}
    (read : ofSource path marker text = .ok file) : file.Sound path := by
  unfold ofSource at read
  simp only [bind, Except.bind, pure, Except.pure] at read
  split at read
  · simp at read
  · obtain rfl := Except.ok.inj read
    exact ⟨rfl, Go.typesOf_ascending _, fun package found => Go.isWord_of_packageOf? found⟩

/-- The notes of a file are those of its lines. -/
theorem ofLines_of_ofSource {path marker text : Text} {file : GoFile}
    (read : ofSource path marker text = .ok file) : Note.ofLines marker file.lines = .ok file.notes := by
  unfold ofSource at read
  cases notes : Note.ofLines marker (text.splitOn '\n') with
  | error error => simp [notes, bind, Except.bind] at read
  | ok list =>
    simp only [notes, bind, Except.bind, pure, Except.pure, Except.ok.injEq] at read
    rw [← read]
    exact notes

private theorem append_dot_inj {left right name other : Text} (leftDotless : '.' ∉ left)
    (rightDotless : '.' ∉ right) (same : left ++ '.' :: name = right ++ '.' :: other) :
    left = right ∧ name = other := by
  induction left generalizing right with
  | nil =>
    cases right with
    | nil => simpa using same
    | cons d right =>
      have dotted : d = '.' := by simpa using (List.cons.inj same).1.symm
      simp [dotted] at rightDotless
  | cons c left ih =>
    cases right with
    | nil =>
      have dotted : c = '.' := by simpa using (List.cons.inj same).1
      simp [dotted] at leftDotless
    | cons d right =>
      simp only [List.cons_append, List.cons.injEq] at same
      obtain ⟨equal, rest⟩ := ih (fun dot => leftDotless (List.mem_cons_of_mem _ dot))
        (fun dot => rightDotless (List.mem_cons_of_mem _ dot)) same.2
      exact ⟨by rw [same.1, equal], rest⟩

/-- A qualified name tells the package and the type. -/
theorem qualify_inj {path other : Text} {file second : GoFile} (sound : file.Sound path)
    (otherSound : second.Sound other) {name type : Text} (named : Text.IsWord name)
    (typed : Text.IsWord type) (same : file.qualify name = second.qualify type) :
    file.package = second.package ∧ name = type := by
  have spells : ∀ {package bare type : Text}, Text.IsWord bare → package ++ '.' :: type ≠ bare := by
    rintro package bare type valid rfl
    exact valid.no_dot (by simp)
  unfold qualify at same
  cases here : file.package with
  | none =>
    cases there : second.package with
    | none => simpa [here, there] using same
    | some package =>
      simp only [here, there] at same
      exact absurd same.symm (spells named)
  | some package =>
    cases there : second.package with
    | none =>
      simp only [here, there] at same
      exact absurd same (spells typed)
    | some second =>
      simp only [here, there] at same
      obtain ⟨rfl, rfl⟩ := append_dot_inj (sound.package _ here).no_dot
        (otherSound.package _ there).no_dot same
      exact ⟨rfl, rfl⟩

end GoFile

end ApiNotes
