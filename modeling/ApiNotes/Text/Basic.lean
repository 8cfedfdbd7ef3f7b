/-!
# Texts

A text is the list of its code points: every column and length of this library counts code
points.
-/

namespace ApiNotes

abbrev Text := List Char

namespace Text

/-- What follows `lead` in a text that begins with it. -/
def after? : Text → Text → Option Text
  | [], text => some text
  | _ :: _, [] => none
  | c :: lead, d :: text => if c = d then after? lead text else none

theorem after?_append (lead rest : Text) : after? lead (lead ++ rest) = some rest := by
  induction lead with
  | nil => rfl
  | cons c lead ih => simp [after?, ih]

theorem eq_append_of_after? {lead text rest : Text} (h : after? lead text = some rest) :
    text = lead ++ rest := by
  fun_induction after? lead text with
  | case1 => simp_all
  | case2 => simp at h
  | case3 lead c text ih => simp [ih h]
  | case4 => simp at h

def startsWith (lead text : Text) : Bool := (after? lead text).isSome

def endsWith (tail text : Text) : Bool := startsWith tail.reverse text.reverse

/-- The search behind `find?`, `place` characters into the text. -/
def findFrom (piece : Text) (place : Nat) : Text → Option Nat
  | [] => if piece = [] then some place else none
  | c :: rest => if startsWith piece (c :: rest) then some place else findFrom piece (place + 1) rest

/-- How many characters precede the first occurrence of `piece` in `text`. -/
def find? (piece text : Text) : Option Nat := findFrom piece 0 text

def occursIn (piece text : Text) : Bool := (find? piece text).isSome

/-- The pieces between the characters that satisfy `gap`, without the empty ones. -/
def piecesBetween (gap : Char → Bool) (text : Text) : List Text :=
  (text.splitOnP gap).filter (· ≠ [])

/-- The part of `text` after the last `mark`, or all of it where there is none. -/
def afterLast (mark : Char) (text : Text) : Text :=
  (text.reverse.takeWhile (· ≠ mark)).reverse

/-- The part of `text` before its last `mark`. -/
def beforeLast (mark : Char) (text : Text) : Text :=
  ((text.reverse.dropWhile (· ≠ mark)).drop 1).reverse

/-- The part of `text` before `column`; a negative column counts from the end. -/
def before (column : Int) (text : Text) : Text :=
  text.take (if column < 0 then text.length + column else column).toNat

/-- The order of texts: by the first code points that differ, a beginning before the whole. -/
def le : Text → Text → Bool
  | [], _ => true
  | _ :: _, [] => false
  | c :: a, d :: b => if c = d then le a b else decide (c.toNat < d.toNat)

def ofNat (n : Nat) : Text := Nat.toDigits 10 n

/-- An integer in decimal digits, a negative one with a minus sign. -/
def ofInt : Int → Text
  | .ofNat n => ofNat n
  | .negSucc n => '-' :: ofNat (n + 1)

/-- The pieces of a text between its marks. -/
theorem of_mem_splitOn {mark c : Char} {text part : Text} (member : part ∈ text.splitOn mark)
    (inside : c ∈ part) : c ∈ text ∧ c ≠ mark := by
  induction text generalizing part with
  | nil =>
    obtain rfl : part = [] := by simpa using member
    simp at inside
  | cons d text ih =>
    rw [List.splitOn_cons_eq_if_modifyHead] at member
    split at member
    · rcases List.mem_cons.mp member with rfl | later
      · simp at inside
      · exact ⟨List.mem_cons_of_mem _ (ih later inside).1, (ih later inside).2⟩
    · rename_i other
      obtain ⟨first, rest, parts⟩ := List.exists_cons_of_ne_nil (List.splitOn_ne_nil mark text)
      rw [parts, List.modifyHead_cons] at member
      rcases List.mem_cons.mp member with rfl | later
      · rcases List.mem_cons.mp inside with rfl | inside
        · exact ⟨by simp, by simpa using other⟩
        · have known := ih (by simp [parts]) inside
          exact ⟨List.mem_cons_of_mem _ known.1, known.2⟩
      · have known := ih (by simp [parts, later]) inside
        exact ⟨List.mem_cons_of_mem _ known.1, known.2⟩

end Text

end ApiNotes
