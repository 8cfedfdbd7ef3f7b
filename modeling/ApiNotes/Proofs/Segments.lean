import ApiNotes.Note.Block
import Mathlib.Data.List.Basic

/-!
# The blocks of a document

`IsBlock` says which lines form a block, without a scan: comment lines that begin with the first
marker line of their run, go on to the end of the run and have an annotation among them. The scan
finds these blocks and no others, in ascending order (`Block.ofLines_isBlock`). It is followed line
by line through what it has entered (`Block.Follows`).
-/

namespace ApiNotes

/-- The line of a document with a number, from 1 on. -/
def lineAt? (lines : List Text) : Nat → Option Text
  | 0 => none
  | number + 1 => lines[number]?

/-- A document has a line with this number, and the line satisfies `p`. -/
def LineIs (p : Text → Bool) (lines : List Text) (number : Nat) : Prop :=
  (lineAt? lines number).any p = true

instance (p : Text → Bool) (lines : List Text) (number : Nat) : Decidable (LineIs p lines number) :=
  inferInstanceAs (Decidable (_ = true))

/-- The lines from `start` up to, not including, `stop` are comments. -/
def IsRun (lines : List Text) (start stop : Nat) : Prop :=
  ∀ n, start ≤ n → n < stop → LineIs isComment lines n

/-- The lines from `first` to `last` are a block. -/
structure IsBlock (marker : Text) (lines : List Text) (first last : Nat) : Prop where
  positive : 1 ≤ first
  ordered : first ≤ last
  inside : last ≤ lines.length
  comments : IsRun lines first (last + 1)
  closed : last = lines.length ∨ ¬LineIs isComment lines (last + 1)
  marked : LineIs (isMarker marker) lines first
  /-- No earlier line of the same run of comments has a marker. -/
  earliest : ∀ n < first, IsRun lines n first → ¬LineIs (isMarker marker) lines n
  annotated : ∃ n, first ≤ n ∧ n ≤ last ∧ LineIs hasKeyword lines n

section

variable {p : Text → Bool} {marker line : Text} {lines rest : List Text} {start stop number : Nat}

theorem LineIs.bounds (is : LineIs p lines number) : 1 ≤ number ∧ number ≤ lines.length := by
  cases number with
  | zero => simp [LineIs, lineAt?] at is
  | succ n =>
    have inside : n < lines.length := by
      by_contra outside
      simp [LineIs, lineAt?, List.getElem?_eq_none (Nat.le_of_not_lt outside)] at is
    omega

theorem lineIs_of_lineAt? (found : lineAt? lines number = some line) :
    LineIs p lines number ↔ p line = true := by
  simp [LineIs, found]

theorem lineAt?_of_drop (left : lines.drop number = line :: rest) :
    lineAt? lines (number + 1) = some line ∧ lines.drop (number + 1) = rest := by
  constructor
  · rw [lineAt?, ← List.head?_drop, left]
    rfl
  · rw [← List.tail_drop, left]
    rfl

theorem IsRun.empty (start : Nat) : IsRun lines start start := by
  intro n lower upper
  omega

theorem IsRun.extend (run : IsRun lines start stop) (next : LineIs isComment lines stop) :
    IsRun lines start (stop + 1) := by
  intro n lower upper
  rcases Nat.lt_or_ge n stop with inside | beyond
  · exact run n lower inside
  · obtain rfl : n = stop := by omega
    exact next

theorem IsRun.sub (run : IsRun lines start stop) {first last : Nat} (lower : start ≤ first)
    (upper : last ≤ stop) : IsRun lines first last :=
  fun n left right => run n (by omega) (by omega)

end

/-! ## Any two blocks -/

namespace IsBlock

variable {marker : Text} {lines : List Text} {first last other stop : Nat}

/-- The line after a block is no comment, and what begins later begins after it. -/
theorem apart (block : IsBlock marker lines first last) (next : IsBlock marker lines other stop)
    (later : first < other) : last + 1 < other ∧ ¬LineIs isComment lines (last + 1) := by
  have beyond : last + 1 < other := by
    by_contra inside
    exact next.earliest first later (block.comments.sub (by omega) (by omega)) block.marked
  refine ⟨beyond, block.closed.resolve_left fun ends => ?_⟩
  have := next.ordered
  have := next.inside
  omega

theorem last_eq (block : IsBlock marker lines first last) (same : IsBlock marker lines first stop) :
    last = stop := by
  -- The shorter of two blocks would be followed by a comment line of the longer one.
  have bound : ∀ {short long : Nat}, IsBlock marker lines first short →
      IsBlock marker lines first long → long ≤ short := by
    intro short long cut full
    by_contra longer
    rcases cut.closed with ends | ends
    · have := full.inside
      omega
    · have := cut.ordered
      exact ends (full.comments (short + 1) (by omega) (by omega))
  exact Nat.le_antisymm (bound same block) (bound block same)

/-- Two blocks that begin in one run of comments are the same. -/
theorem eq_of_isRun (block : IsBlock marker lines first last) (next : IsBlock marker lines other stop)
    {start finish : Nat} (run : IsRun lines start finish) (begins : start ≤ first ∧ first < finish)
    (nextBegins : start ≤ other ∧ other < finish) : first = other ∧ last = stop := by
  have noneLater : ∀ {a b c d : Nat}, IsBlock marker lines a b → IsBlock marker lines c d →
      start ≤ a → c < finish → ¬a < c := by
    intro a b c d earlier later lower upper before
    have ⟨beyond, gap⟩ := earlier.apart later before
    have := earlier.ordered
    exact gap (run _ (by omega) (by omega))
  have same : first = other := by
    have := noneLater block next begins.1 nextBegins.2
    have := noneLater next block nextBegins.1 begins.2
    omega
  subst same
  exact ⟨rfl, block.last_eq next⟩

end IsBlock

/-! ## The scan -/

namespace Block

variable {marker line : Text} {lines rest : List Text} {number : Nat} {entered : Option Entered}

/-- What has been entered after a comment line. -/
def enter (marker line : Text) (number : Int) : Option Entered → Option Entered
  | some block => some { block with annotated := block.annotated || hasKeyword line }
  | none => if isMarker marker line then some ⟨number, hasKeyword line⟩ else none

theorem scan_comment (comment : isComment line = true) (number : Int) :
    scan marker number entered (line :: rest) =
      scan marker (number + 1) (enter marker line number entered) rest := by
  cases entered <;> simp only [scan, enter, comment, if_true]

theorem scan_other (other : isComment line = false) (number : Int) :
    scan marker number entered (line :: rest) =
      ending number entered ++ scan marker (number + 1) none rest := by
  simp only [scan, other, Bool.false_eq_true, if_false]

/-- What a scan that has read the lines before `number` has entered: nothing where their last run of
comments has no marker, otherwise the lines from the first marker of that run on. -/
def Follows (marker : Text) (lines : List Text) (number : Nat) : Option Entered → Prop
  | none => ∀ n < number, IsRun lines n number → ¬LineIs (isMarker marker) lines n
  | some block => ∃ first : Nat, block.first = first ∧ first < number ∧ IsRun lines first number ∧
      LineIs (isMarker marker) lines first ∧
      (∀ n < first, IsRun lines n first → ¬LineIs (isMarker marker) lines n) ∧
      (block.annotated = true ↔ ∃ n, first ≤ n ∧ n < number ∧ LineIs hasKeyword lines n)

theorem follows_start : Follows marker lines 1 none := by
  intro n before _ marked
  have := marked.bounds
  omega

theorem follows_other (other : ¬LineIs isComment lines number) :
    Follows marker lines (number + 1) none := by
  intro n before run _
  exact other (run number (by omega) (by omega))

/-- One more comment line. -/
theorem Follows.enter (follows : Follows marker lines number entered)
    (found : lineAt? lines number = some line) (comment : isComment line = true) :
    Follows marker lines (number + 1) (enter marker line number entered) := by
  have here : LineIs isComment lines number := (lineIs_of_lineAt? found).mpr comment
  have keyword : LineIs hasKeyword lines number ↔ hasKeyword line = true := lineIs_of_lineAt? found
  have marks : LineIs (isMarker marker) lines number ↔ isMarker marker line = true :=
    lineIs_of_lineAt? found
  cases entered with
  | some block =>
    obtain ⟨first, begins, before, run, marked, earliest, annotated⟩ := follows
    refine ⟨first, begins, by omega, run.extend here, marked, earliest, ?_⟩
    rw [Bool.or_eq_true, annotated, ← keyword]
    constructor
    · rintro (⟨n, lower, upper, word⟩ | word)
      · exact ⟨n, lower, by omega, word⟩
      · exact ⟨number, by omega, by omega, word⟩
    · rintro ⟨n, lower, upper, word⟩
      rcases Nat.lt_or_ge n number with inside | beyond
      · exact .inl ⟨n, lower, inside, word⟩
      · obtain rfl : n = number := by omega
        exact .inr word
  | none =>
    by_cases marked : isMarker marker line = true
    · rw [Block.enter, if_pos marked]
      refine ⟨number, rfl, by omega, (IsRun.empty number).extend here, marks.mpr marked,
        follows, ?_⟩
      rw [← keyword]
      constructor
      · intro word
        exact ⟨number, by omega, by omega, word⟩
      · rintro ⟨n, lower, upper, word⟩
        obtain rfl : n = number := by omega
        exact word
    · rw [Block.enter, if_neg marked]
      intro n before run marker
      rcases Nat.lt_or_ge n number with inside | beyond
      · exact follows n inside (run.sub (by omega) (by omega)) marker
      · obtain rfl : n = number := by omega
        exact marked (marks.mp marker)

/-- Where no comment follows, the block that was entered is the one that ends there. -/
theorem mem_ending_iff (follows : Follows marker lines number entered) (positive : 1 ≤ number)
    (ends : ¬LineIs isComment lines number) (block : Block) :
    block ∈ ending number entered ↔
      ∃ first last : Nat, block = ⟨first, last⟩ ∧ IsBlock marker lines first last ∧ number = last + 1 := by
  constructor
  · intro member
    match entered, follows, member with
    | some ⟨_, true⟩, ⟨first, begins, before, run, marked, earliest, annotated⟩, member =>
      obtain ⟨n, lower, upper, word⟩ := annotated.mp rfl
      have inside := (run (number - 1) (by omega) (by omega)).bounds
      obtain ⟨last, rfl⟩ : ∃ last, number = last + 1 := ⟨number - 1, by omega⟩
      refine ⟨first, last, ?_, ⟨marked.bounds.1, by omega, by omega, run, .inr ends, marked, earliest,
        n, lower, by omega, word⟩, rfl⟩
      simp only [ending, List.mem_singleton] at member
      rw [member]
      simp only at begins
      simp [begins]
  · rintro ⟨first, last, rfl, block, rfl⟩
    cases entered with
    | none =>
      have := block.ordered
      exact absurd block.marked (follows first (by omega) block.comments)
    | some seen =>
      obtain ⟨start, begins, before, run, marked, earliest, annotated⟩ := follows
      have sameStart : first = start := by
        rcases Nat.lt_trichotomy first start with less | same | more
        · exact absurd block.marked (earliest first less (block.comments.sub (by omega) (by omega)))
        · exact same
        · have := block.ordered
          exact absurd marked (block.earliest start more (run.sub (by omega) (by omega)))
      subst sameStart
      obtain ⟨n, lower, upper, word⟩ := block.annotated
      have flagged : seen.annotated = true := annotated.mpr ⟨n, lower, by omega, word⟩
      obtain ⟨place, flag⟩ := seen
      obtain rfl : place = first := begins
      obtain rfl : flag = true := flagged
      simp [ending]

/-- The blocks that a scan still finds are those that do not end before it. -/
theorem mem_scan_iff (left : lines.drop number = rest) (follows : Follows marker lines (number + 1) entered)
    (block : Block) :
    block ∈ scan marker (number + 1 : Nat) entered rest ↔
      ∃ first last : Nat, block = ⟨first, last⟩ ∧ IsBlock marker lines first last ∧ number ≤ last := by
  -- By induction on the lines that are left. A comment line ends no block; any other line ends the one
  -- that was entered, if any.
  induction rest generalizing number entered with
  | nil =>
    have short : lines.length ≤ number := List.drop_eq_nil_iff.mp left
    have ends : ¬LineIs isComment lines (number + 1) := fun comment => by
      have := comment.bounds
      omega
    rw [scan, mem_ending_iff follows (by omega) ends]
    constructor
    · rintro ⟨first, last, rfl, block, same⟩
      exact ⟨first, last, rfl, block, by omega⟩
    · rintro ⟨first, last, rfl, block, bound⟩
      have := block.inside
      exact ⟨first, last, rfl, block, by omega⟩
  | cons line rest ih =>
    obtain ⟨found, later⟩ := lineAt?_of_drop left
    by_cases comment : isComment line = true
    · have here : LineIs isComment lines (number + 1) := (lineIs_of_lineAt? found).mpr comment
      rw [scan_comment comment, ← Int.natCast_succ, ih later (follows.enter found comment)]
      constructor
      · rintro ⟨first, last, rfl, block, bound⟩
        exact ⟨first, last, rfl, block, by omega⟩
      · rintro ⟨first, last, rfl, block, bound⟩
        refine ⟨first, last, rfl, block, ?_⟩
        by_contra short
        obtain rfl : last = number := by omega
        rcases block.closed with ends | ends
        · have := here.bounds
          omega
        · exact ends here
    · have ends : ¬LineIs isComment lines (number + 1) := by
        rwa [lineIs_of_lineAt? found]
      rw [scan_other (by simpa using comment), List.mem_append,
        mem_ending_iff follows (by omega) ends, ← Int.natCast_succ, ih later (follows_other ends)]
      constructor
      · rintro (⟨first, last, rfl, block, same⟩ | ⟨first, last, rfl, block, bound⟩)
        · exact ⟨first, last, rfl, block, by omega⟩
        · exact ⟨first, last, rfl, block, by omega⟩
      · rintro ⟨first, last, rfl, block, bound⟩
        rcases Nat.eq_or_lt_of_le bound with same | less
        · exact .inl ⟨first, last, rfl, block, by omega⟩
        · exact .inr ⟨first, last, rfl, block, less⟩

theorem mem_ofLines_iff (marker : Text) (lines : List Text) (block : Block) :
    block ∈ ofLines marker lines ↔
      ∃ first last : Nat, block = ⟨first, last⟩ ∧ IsBlock marker lines first last := by
  have start : Follows marker lines (0 + 1) none := follows_start
  have all := mem_scan_iff (List.drop_zero (l := lines)) start block
  simpa [ofLines] using all

/-- One block ends, with a line that is no comment after it, before the other begins. -/
def Before (lines : List Text) (a b : Block) : Prop :=
  a.first ≤ a.last ∧ ∃ gap : Nat, a.last < gap ∧ gap < b.first ∧ ¬LineIs isComment lines gap

theorem scan_ascending (left : lines.drop number = rest)
    (follows : Follows marker lines (number + 1) entered) :
    (scan marker (number + 1 : Nat) entered rest).Pairwise (Before lines) := by
  induction rest generalizing number entered with
  | nil =>
    rw [scan]
    rcases entered with _ | ⟨_, _ | _⟩ <;> simp [ending]
  | cons line rest ih =>
    obtain ⟨found, later⟩ := lineAt?_of_drop left
    by_cases comment : isComment line = true
    · rw [scan_comment comment, ← Int.natCast_succ]
      exact ih later (follows.enter found comment)
    · have ends : ¬LineIs isComment lines (number + 1) := by
        rwa [lineIs_of_lineAt? found]
      rw [scan_other (by simpa using comment), ← Int.natCast_succ, List.pairwise_append]
      refine ⟨?_, ih later (follows_other ends), ?_⟩
      · rcases entered with _ | ⟨_, _ | _⟩ <;> simp [ending]
      · -- A block that is found later has only comment lines, so it begins after this line.
        intro a before b after
        obtain ⟨first, last, rfl, block, same⟩ := (mem_ending_iff follows (by omega) ends a).mp before
        obtain ⟨start, stop, rfl, next, bound⟩ := (mem_scan_iff later (follows_other ends) b).mp after
        have := block.ordered
        have apart : number + 1 < start := by
          by_contra overlap
          exact ends (next.comments (number + 1) (by omega) (by omega))
        refine ⟨by simpa using this, number + 1, ?_, ?_, ends⟩
        · simp only
          omega
        · simp only
          omega

theorem ofLines_ascending (marker : Text) (lines : List Text) :
    (ofLines marker lines).Pairwise (Before lines) := by
  have start : Follows marker lines (0 + 1) none := follows_start
  exact scan_ascending List.drop_zero start

/-- The blocks of a document are exactly the lines that form a block, in ascending order, with a line
that is no comment between any two; so a run of comments holds the beginning of at most one. -/
theorem ofLines_isBlock (marker : Text) (lines : List Text) :
    (∀ block, block ∈ ofLines marker lines ↔
      ∃ first last : Nat, block = ⟨first, last⟩ ∧ IsBlock marker lines first last) ∧
    (ofLines marker lines).Pairwise (Before lines) ∧
    ∀ start stop : Nat, IsRun lines start stop →
      ∀ a ∈ ofLines marker lines, ∀ b ∈ ofLines marker lines,
        start ≤ a.first ∧ a.first < stop → start ≤ b.first ∧ b.first < stop → a = b := by
  refine ⟨mem_ofLines_iff marker lines, ofLines_ascending marker lines, ?_⟩
  intro start stop run a aMember b bMember aBegins bBegins
  obtain ⟨first, last, rfl, block⟩ := (mem_ofLines_iff marker lines a).mp aMember
  obtain ⟨other, finish, rfl, next⟩ := (mem_ofLines_iff marker lines b).mp bMember
  simp only [Int.ofNat_le, Int.ofNat_lt] at aBegins bBegins
  obtain ⟨rfl, rfl⟩ := block.eq_of_isRun next run aBegins bBegins
  rfl

end Block

end ApiNotes
