namespace ApiNotes

/-- A set of code points, by the ascending list of those at which membership changes, starting
outside the set: `[a, b]` is the half-open range from `a` to `b`. -/
structure CodeSet where
  changes : List Nat

namespace CodeSet

/-- Whether `code` lies inside, when membership before the first change is `inside`. -/
def containsFrom (inside : Bool) : List Nat → Nat → Bool
  | [], _ => inside
  | change :: later, code => if code < change then inside else containsFrom (!inside) later code

/-- Membership: an odd number of changes lies at or below `code`. -/
def contains (set : CodeSet) (code : Nat) : Bool := containsFrom false set.changes code

end CodeSet

end ApiNotes
