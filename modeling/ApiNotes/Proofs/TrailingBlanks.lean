import ApiNotes.Proofs.Braces
import ApiNotes.Proofs.Extraction
import ApiNotes.Proofs.LineEnds

/-!
# Sources with blanks at the ends of their lines

Since no reader of a line minds the blanks at its end, a document is read as the same document with
all of them trimmed (`Note.ofLines_map_trimRight`, `Go.typesFrom_map_trimRight`). Two sources that differ
in nothing but these blanks are therefore read alike, or fail alike: whatever is added to the ends of
the lines, only the lines of the file change (`GoFile.ofSource_padSource`).
-/

namespace ApiNotes

open Text

theorem Text.apply_trimRight {α : Type} {f : Text → α}
    (ignores : ∀ text gap, AllBlank gap → f (text ++ gap) = f text) (text : Text) :
    f (trimRight text) = f text := by
  obtain ⟨gap, blank, split⟩ := exists_trimRight text
  conv => rhs; rw [split]
  exact (ignores _ gap blank).symm

/-! ## Blocks and notes -/

variable {marker line : Text} {lines : List Text}

theorem Block.scan_map_trimRight (firm : EndsFirm marker) (number : Int) (entered : Option Entered)
    (lines : List Text) :
    scan marker number entered (lines.map trimRight) = scan marker number entered lines := by
  induction lines generalizing number entered with
  | nil => rfl
  | cons line rest ih =>
    have comment := apply_trimRight (fun text _ blank => isComment_append_gap blank text) line
    have keyword := apply_trimRight (fun text _ blank => hasKeyword_append_gap blank text) line
    have marked := apply_trimRight (fun text _ blank => isMarker_append_gap blank firm text) line
    simp only [List.map_cons, scan, comment, keyword, marked, ih]

theorem Field.ofLine_trimRight (oneLine : '\n' ∉ line) (number : Int) :
    ofLine (trimRight line) number = ofLine line number := by
  obtain ⟨gap, blank, split⟩ := exists_trimRight line
  rw [split, List.mem_append, not_or] at oneLine
  conv => rhs; rw [split]
  exact (ofLine_append_gap blank oneLine.1 oneLine.2 number).symm

theorem Field.ofBlock_map_trimRight (oneLine : ∀ line ∈ lines, '\n' ∉ line) (block : Block) :
    ofBlock block (lines.map trimRight) = ofBlock block lines := by
  have within : block.linesOf (lines.map trimRight) =
      (block.linesOf lines).map (Prod.map trimRight id) := by
    rw [Block.linesOf, numbered, List.zipIdx_map, List.filter_map]
    rfl
  refine (congrArg (readAll fun entry => ofLine entry.1 entry.2) within).trans (readAll_map ?_)
  intro entry member
  exact ofLine_trimRight (oneLine _ (List.fst_mem_of_mem_zipIdx (List.mem_of_mem_filter member))) _

theorem Note.ofLines_map_trimRight (firm : EndsFirm marker) (oneLine : ∀ line ∈ lines, '\n' ∉ line) :
    ofLines marker (lines.map trimRight) = ofLines marker lines := by
  have blocks : Block.ofLines marker (lines.map trimRight) = Block.ofLines marker lines :=
    Block.scan_map_trimRight firm 1 none lines
  simp only [ofLines, blocks, Field.ofBlock_map_trimRight oneLine]

/-! ## Package, imports and types -/

namespace Go

theorem packageOf?_map_trimRight (lines : List Text) :
    packageOf? (lines.map trimRight) = packageOf? lines := by
  have same : packageOfLine? ∘ trimRight = packageOfLine? :=
    funext fun line => apply_trimRight (fun text _ blank => packageOfLine?_append_gap blank text) line
  rw [packageOf?, List.findSome?_map, same, packageOf?]

theorem importsFrom_map_trimRight (grouped : Bool) (number : Nat) (lines : List Text) :
    importsFrom grouped number (lines.map trimRight) = importsFrom grouped number lines := by
  induction lines generalizing grouped number with
  | nil => rfl
  | cons line rest ih =>
    have trimmed := apply_trimRight (fun text _ blank => trim_append_gap blank text) line
    have ends := apply_trimRight (fun text _ blank => isGroupEnd_append_gap blank text) line
    simp only [List.map_cons, importsFrom, trimmed, ends, ih]

theorem BraceScan.linesToClose_map_trimRight {scan : BraceScan} (unclosed : scan.closed = false)
    (awaits : ∀ next, scan.Awaits next) (lines : List Text) :
    scan.linesToClose (lines.map trimRight) = scan.linesToClose lines := by
  induction lines generalizing scan with
  | nil => rfl
  | cons line rest ih =>
    by_cases last : rest = []
    · rw [last]
      rfl
    have same : scan.line (trimRight line) = scan.line line := 
      apply_trimRight (fun text _ blank => line_append_gap blank (awaits text.head?) unclosed) line
    rw [List.map_cons, linesToClose_cons _ _ (by simpa using last), linesToClose_cons _ _ last, same]
    by_cases closed : (scan.line line).closed = true
    · rw [if_pos closed, if_pos closed]
    · have more : (scan.line line).closed = false := by simpa using closed
      rw [if_neg closed, if_neg closed, ih more (awaits_line scan line more)]

theorem typeDecl?_map_trimRight (spec : Text) (number : Nat) (lines : List Text) :
    typeDecl? spec number (lines.map trimRight) = typeDecl? spec number lines := by
  simp only [typeDecl?, BraceScan.linesToClose_map_trimRight rfl BraceScan.awaits_start]

theorem typesFrom_map_trimRight (grouped : Bool) (skip number : Nat) (lines : List Text) :
    typesFrom grouped skip number (lines.map trimRight) = typesFrom grouped skip number lines := by
  induction lines generalizing grouped skip number with
  | nil => rfl
  | cons line rest ih =>
    cases skip with
    | succ skip => exact ih grouped skip (number + 1)
    | zero =>
      have ends := apply_trimRight (fun text _ blank => isGroupEnd_append_gap blank text) line
      have begins := apply_trimRight (fun text _ blank => isGroupStart_append_gap blank isWord_type text) line
      have declared : ((specOfLine? grouped (trimRight line)).bind fun spec =>
            typeDecl? spec number ((line :: rest).map trimRight)) =
          (specOfLine? grouped line).bind fun spec => typeDecl? spec number (line :: rest) := by
        simp only [typeDecl?_map_trimRight]
        refine apply_trimRight (f := fun text => (specOfLine? grouped text).bind fun spec =>
          typeDecl? spec number (line :: rest)) (fun text _ blank => ?_) line
        exact specOfLine?_bind_append_gap blank grouped rfl
          (fun spec => typeDecl?_append_gap blank spec number (line :: rest)) text
      rw [List.map_cons, typesFrom, typesFrom, ends, begins, ← List.map_cons, declared]
      simp only [ih]

end Go

/-! ## Sources -/

/-- The lines with something more at the end of each. -/
def padLines (gaps : Nat → Text) (lines : List Text) : List Text :=
  lines.mapIdx fun place line => line ++ gaps place

/-- A source with something more at the end of each line. -/
def padSource (gaps : Nat → Text) (source : Text) : Text :=
  ['\n'].intercalate (padLines gaps (source.splitOn '\n'))

section

variable {gaps : Nat → Text}

theorem splitOn_padSource (sameLine : ∀ place, '\n' ∉ gaps place) (source : Text) :
    (padSource gaps source).splitOn '\n' = padLines gaps (source.splitOn '\n') := by
  refine List.splitOn_intercalate '\n' ?_ ?_
  · rintro line member broken
    rw [padLines, List.mem_mapIdx] at member
    obtain ⟨place, inside, rfl⟩ := member
    rcases List.mem_append.mp broken with within | added
    · exact (of_mem_splitOn (List.getElem_mem inside) within).2 rfl
    · exact sameLine place added
  · rw [padLines, Ne, List.mapIdx_eq_nil_iff]
    exact List.splitOn_ne_nil '\n' source

theorem map_trimRight_padLines (blank : ∀ place, AllBlank (gaps place)) (lines : List Text) :
    (padLines gaps lines).map trimRight = lines.map trimRight := by
  refine List.ext_getElem? fun place => ?_
  rw [padLines, List.getElem?_map, List.getElem?_mapIdx, List.getElem?_map, Option.map_map]
  simp [Function.comp_def, trimRight_append (blank place)]

theorem apply_padLines {α : Type} {f : List Text → α} (blank : ∀ place, AllBlank (gaps place))
    (trims : ∀ lines, f (lines.map trimRight) = f lines) (lines : List Text) :
    f (padLines gaps lines) = f lines := by
  rw [← trims, map_trimRight_padLines blank, trims]

end

theorem GoFile.ofSource_eq_map (name marker source : Text) :
    ofSource name marker source = (Note.ofLines marker (source.splitOn '\n')).map fun notes =>
      { name := name, lines := source.splitOn '\n', package := Go.packageOf? (source.splitOn '\n'),
        imports := Go.importsOf (source.splitOn '\n'), types := Go.typesOf (source.splitOn '\n'), notes := notes } := by
  rw [ofSource]
  cases Note.ofLines marker (source.splitOn '\n') <;> rfl

/-- Blanks at the ends of lines never matter: with them a source is read as the same file but for the
lines themselves, or it cannot be read for the same reason. -/
theorem GoFile.ofSource_padSource (name marker source : Text) (firm : EndsFirm marker) (gaps : Nat → Text)
    (blank : ∀ place, AllBlank (gaps place)) (sameLine : ∀ place, '\n' ∉ gaps place) :
    ofSource name marker (padSource gaps source) =
      (ofSource name marker source).map fun file => { file with lines := padLines gaps file.lines } := by
  have unbroken : ∀ text : Text, ∀ line ∈ text.splitOn '\n', '\n' ∉ line :=
    fun text line member broken => (of_mem_splitOn member broken).2 rfl
  have lines := splitOn_padSource sameLine source
  have notes : Note.ofLines marker (padLines gaps (source.splitOn '\n')) =
      Note.ofLines marker (source.splitOn '\n') := by
    rw [← Note.ofLines_map_trimRight firm (lines ▸ unbroken (padSource gaps source)),
      map_trimRight_padLines blank, Note.ofLines_map_trimRight firm (unbroken source)]
  rw [ofSource_eq_map, ofSource_eq_map, lines, notes,
    apply_padLines blank Go.packageOf?_map_trimRight,
    apply_padLines (f := Go.importsOf) blank (Go.importsFrom_map_trimRight false 1),
    apply_padLines (f := Go.typesOf) blank (Go.typesFrom_map_trimRight false 0 1)]
  cases Note.ofLines marker (source.splitOn '\n') <;> rfl

/-- A file with a type and a note. -/
def notedSource : Text := "package a\n\n// Get godoc\n// @Tags t\ntype T struct \x7b\n\x7d\n".toList

/-- It is read alike where each line ends with a carriage return as well. -/
theorem GoFile.ofSource_padSource_return : ∃ file, ofSource [] defaultMarker notedSource = .ok file ∧
    file.package = some ['a'] ∧ file.types = [⟨['T'], .struct, 5, 6⟩] ∧
    file.notes = [⟨⟨3, 4⟩, [⟨4, .tag .tags, ['t'], none, []⟩]⟩] ∧
    ofSource [] defaultMarker
        "package a\r\n\r\n// Get godoc\r\n// @Tags t\r\ntype T struct \x7b\r\n\x7d\r\n\r".toList =
      .ok { file with lines := file.lines.map (· ++ ['\r']) } := by
  refine ⟨_, rfl, rfl, rfl, rfl, ?_⟩
  exact ofSource_padSource [] defaultMarker notedSource (endsFirm_concat "godo".toList rfl) (fun _ => ['\r'])
    (fun _ => List.forall_mem_singleton.mpr rfl) (fun _ => by simp)

end ApiNotes
