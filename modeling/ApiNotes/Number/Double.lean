import ApiNotes.Text.Basic

/-!
# Numbers with a point

A number with a point has 64 bits. It is written with the fewest decimal digits that are read as
the same number (`Rounding.shortest`). Every finite one is a multiple of the smallest one above
zero, and to add two is to add their multiples and to take the nearest number (`Double.ofUnits`).
-/

namespace ApiNotes

inductive Double where
  /-- `mantissa` times two to the power `exponent`, below zero if `negative`. -/
  | finite (negative : Bool) (mantissa : Nat) (exponent : Int)
  /-- A number beyond all that can be written. -/
  | infinite (negative : Bool)
  /-- No number at all. -/
  | undefined
  deriving DecidableEq

/-- A number in decimal, `digits` times ten to the power `exponent`. -/
structure Decimal where
  digits : Nat
  exponent : Int
  deriving DecidableEq

/-! ## Digits -/

/-- The decimals that are read as one number: those between `low` and `high`, and also these two
if `closed`. The number itself is `middle`. All three are divided by two `halvings` times. -/
structure Rounding where
  low : Nat
  middle : Nat
  high : Nat
  halvings : Nat
  closed : Bool

namespace Rounding

/-- The least mantissa of a number that is not among the very smallest. -/
def leastFullMantissa : Nat := Nat.pow 2 52

/-- The exponent of the very smallest numbers. -/
def leastExponent : Int := -1074

/-- The decimals that are nearer to a number than to the next ones, of which the lower one is at
half the distance right above a power of two. Those halfway to the next go to an even mantissa. -/
def around (mantissa : Nat) (exponent : Int) : Rounding :=
  let narrow := mantissa = leastFullMantissa ∧ leastExponent < exponent
  let doublings := Nat.pow 2 exponent.toNat
  { low := (4 * mantissa - if narrow then 1 else 2) * doublings
    middle := 4 * mantissa * doublings
    high := (4 * mantissa + 2) * doublings
    halvings := (-exponent).toNat + 2
    closed := mantissa % 2 = 0 }

/-- The power of ten that a decimal exponent multiplies by. -/
def tens (exponent : Int) : Nat := Nat.pow 10 exponent.toNat

/-- Whether a decimal is read as the number. -/
def contains (rounding : Rounding) (decimal : Decimal) : Bool :=
  let down := tens (-decimal.exponent)
  let place := decimal.digits * tens decimal.exponent * Nat.pow 2 rounding.halvings
  if rounding.closed then rounding.low * down ≤ place && place ≤ rounding.high * down
  else rounding.low * down < place && place < rounding.high * down

/-- The one of the two multiples of a power of ten around the number that is read as it. Of both,
it is the nearer one, or the even one where they are equally near. -/
def nearest? (rounding : Rounding) (exponent : Int) : Option Decimal :=
  let value := rounding.middle * tens (-exponent)
  let unit := Nat.pow 2 rounding.halvings * tens exponent
  let below : Decimal := ⟨value / unit, exponent⟩
  let above : Decimal := ⟨value / unit + 1, exponent⟩
  let belowFirst : Bool :=
    2 * (value % unit) < unit || (2 * (value % unit) = unit && below.digits % 2 = 0)
  (if belowFirst then [below, above] else [above, below]).find? rounding.contains

/-- The greatest power of ten that a number can have a digit at, and one more. -/
def greatestTens : Int := 309

/-- How many powers of ten a number can have a digit at: the smallest numbers have theirs at the
324th place after the point. -/
def placesOfTens : Nat := 634

/-- The nearest multiple of the greatest possible power of ten that is read as the number. -/
def shortest (rounding : Rounding) : Decimal :=
  ((List.range placesOfTens).findSome? fun (place : Nat) =>
    rounding.nearest? (greatestTens - place)).getD
    ⟨rounding.middle * Nat.pow 5 rounding.halvings, -rounding.halvings⟩

end Rounding

/-! ## Written form -/

/-- Digits times a power of ten, of at least two digits and with its sign. -/
def scientificText (digits : Text) (power : Int) : Text :=
  let written := Text.ofNat power.natAbs
  digits.take 1 ++ (if digits.length ≤ 1 then [] else '.' :: digits.drop 1) ++
    'e' :: (if power < 0 then '-' else '+') :: List.replicate (2 - written.length) '0' ++ written

/-- Digits with a point after the first `point` of them, and with zeros on either side where the
point is not among them. Where it is far away, a power of ten takes its place. -/
def pointText (digits : Text) (point : Int) : Text :=
  if point ≤ -4 || 16 < point then scientificText digits (point - 1)
  else if point ≤ 0 then '0' :: '.' :: List.replicate (-point).toNat '0' ++ digits
  else if digits.length ≤ point then
    digits ++ List.replicate (point.toNat - digits.length) '0' ++ ['.', '0']
  else digits.take point.toNat ++ '.' :: digits.drop point.toNat

def Decimal.text (decimal : Decimal) : Text :=
  let digits := Text.ofNat decimal.digits
  pointText digits (digits.length + decimal.exponent)

namespace Double

def signText (negative : Bool) : Text := if negative then ['-'] else []

def text : Double → Text
  | .finite negative 0 _ => signText negative ++ "0.0".toList
  | .finite negative mantissa exponent =>
    signText negative ++ (Rounding.around mantissa exponent).shortest.text
  | .infinite negative => signText negative ++ "inf".toList
  | .undefined => "nan".toList

/-! ## Integers near a number -/

/-- The part of a number before the point, its sign aside. -/
def wholePart (mantissa : Nat) (exponent : Int) : Nat :=
  mantissa * Nat.pow 2 exponent.toNat / Nat.pow 2 (-exponent).toNat

/-- Whether nothing but zeros stands after the point of a number. -/
def isWhole (mantissa : Nat) (exponent : Int) : Bool :=
  mantissa * Nat.pow 2 exponent.toNat % Nat.pow 2 (-exponent).toNat = 0

/-- A count with its sign. -/
def signed (negative : Bool) (count : Nat) : Int := if negative then -count else count

/-- The integer next to a number on the way to zero. -/
def truncate? : Double → Option Int
  | .finite negative mantissa exponent => some (signed negative (wholePart mantissa exponent))
  | _ => none

/-- The integer that a number is. -/
def toInt? : Double → Option Int
  | .finite negative mantissa exponent =>
    if isWhole mantissa exponent then some (signed negative (wholePart mantissa exponent)) else none
  | _ => none

def isZero : Double → Bool
  | .finite _ mantissa _ => mantissa = 0
  | _ => false

/-! ## Reckoning -/

/-- The number that 64 bits spell: from the top, the sign, eleven bits for the exponent, and the
mantissa without its first bit. -/
def ofBits (bits : Nat) : Double :=
  let negative := bits / Nat.pow 2 63 % 2 = 1
  let shift := bits / Nat.pow 2 52 % Nat.pow 2 11
  let fraction := bits % Rounding.leastFullMantissa
  if shift = 2047 then if fraction = 0 then .infinite negative else .undefined
  else if shift = 0 then .finite negative fraction Rounding.leastExponent
  else .finite negative (Rounding.leastFullMantissa + fraction) (Rounding.leastExponent + shift - 1)

/-- What a number is to be multiplied by to count the smallest numbers in it, as a power of two. -/
def unitExponent : Nat := (-Rounding.leastExponent).toNat

/-- How many times the smallest number above zero goes into `mantissa` times two to the power
`exponent`. -/
def units (negative : Bool) (mantissa : Nat) (exponent : Int) : Int :=
  signed negative (mantissa * Nat.pow 2 (exponent + unitExponent).toNat)

/-- The greatest exponent of a finite number. -/
def greatestExponent : Int := 971

/-- The number nearest to a multiple of the smallest one above zero; of two that are equally near
it is the one with an even mantissa. -/
def ofUnits (units : Int) : Double :=
  let doublings := units.natAbs.log2 - 52
  let step := Nat.pow 2 doublings
  let below := units.natAbs / step
  let rest := 2 * (units.natAbs % step)
  let mantissa := if step < rest || (rest = step && below % 2 = 1) then below + 1 else below
  let exponent := Rounding.leastExponent + doublings
  let carried := mantissa = 2 * Rounding.leastFullMantissa
  let exponent := if carried then exponent + 1 else exponent
  if greatestExponent < exponent then .infinite (units < 0)
  else .finite (units < 0) (if carried then Rounding.leastFullMantissa else mantissa) exponent

def ofInt (value : Int) : Double := ofUnits (value * Nat.pow 2 unitExponent)

def negate : Double → Double
  | .finite negative mantissa exponent => .finite (!negative) mantissa exponent
  | .infinite negative => .infinite (!negative)
  | .undefined => .undefined

/-- The number nearest to the sum of two. A sum of zeros is below zero only if both are. -/
def add : Double → Double → Double
  | .undefined, _ | _, .undefined => .undefined
  | .infinite left, .infinite right => if left = right then .infinite left else .undefined
  | .infinite negative, _ | _, .infinite negative => .infinite negative
  | .finite left 0 _, .finite right 0 _ => .finite (left && right) 0 Rounding.leastExponent
  | .finite left m e, .finite right n f => ofUnits (units left m e + units right n f)

end Double

end ApiNotes
