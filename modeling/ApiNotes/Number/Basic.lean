import ApiNotes.Number.Double

/-!
# Numbers

A number is an integer of any size or a number with a point. The two are compared by what they
stand for, never by a rounded value; where they are added or subtracted, the integer is first
taken to the nearest number with a point.
-/

namespace ApiNotes

inductive Number where
  | int (value : Int)
  | double (value : Double)
  deriving DecidableEq

namespace Number

instance : IntCast Number := ⟨.int⟩

/-- How many times the smallest number above zero goes into a finite number. -/
def units : Number → Int
  | .int value => value * Nat.pow 2 Double.unitExponent
  | .double (.finite negative mantissa exponent) => Double.units negative mantissa exponent
  | .double _ => 0

/-- How two numbers compare, if both are numbers at all. -/
def compare? : Number → Number → Option Ordering
  | .int left, .int right => some (compare left right)
  | .double .undefined, _ | _, .double .undefined => none
  | .double (.infinite left), .double (.infinite right) => some (compare right left)
  | .double (.infinite negative), _ => some (if negative then .lt else .gt)
  | _, .double (.infinite negative) => some (if negative then .gt else .lt)
  | left, right => some (compare left.units right.units)

instance : LT Number := ⟨fun left right => compare? left right = some .lt⟩

instance : LE Number := ⟨fun left right => (compare? left right).any (·.isLE) = true⟩

instance : BEq Number := ⟨fun left right => compare? left right = some .eq⟩

instance (left right : Number) : Decidable (left < right) :=
  inferInstanceAs (Decidable (compare? left right = some .lt))

instance (left right : Number) : Decidable (left ≤ right) :=
  inferInstanceAs (Decidable ((compare? left right).any (·.isLE) = true))

theorem int_lt_int (left right : Int) : Number.int left < Number.int right ↔ left < right := by
  show some (compare left right) = some .lt ↔ _
  rw [Option.some.injEq, Int.compare_eq_lt]

theorem int_le_int (left right : Int) : Number.int left ≤ Number.int right ↔ left ≤ right := by
  show (compare left right).isLE = true ↔ _
  exact Int.isLE_compare

theorem int_beq_int (left right : Int) : (Number.int left == Number.int right) = (left == right) := by
  show decide (some (compare left right) = some .eq) = decide (left = right)
  exact decide_eq_decide.2 (by rw [Option.some.injEq, Int.compare_eq_eq])

/-- The number with a point that is nearest to a number. -/
def toDouble : Number → Double
  | .int value => .ofInt value
  | .double value => value

instance : Add Number where
  add
    | .int left, .int right => .int (left + right)
    | left, right => .double (left.toDouble.add right.toDouble)

instance : Sub Number where
  sub
    | .int left, .int right => .int (left - right)
    | left, right => .double (left.toDouble.add right.toDouble.negate)

/-- A number that was asked for: the number, or the kind of the value that was given in its place. -/
abbrev Given := Except Text Number

/-- What is said of values of two kinds that have no order. -/
def unorderedText (symbol left right : Text) : Text :=
  '\x27' :: symbol ++ "' not supported between instances of '".toList ++ left ++
    "' and '".toList ++ right ++ ['\x27']

def toInt? : Number → Option Int
  | .int value => some value
  | .double value => value.toInt?

end Number

end ApiNotes
