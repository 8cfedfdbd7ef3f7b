import ApiNotes.Ordered
import ApiNotes.Text.Basic

namespace ApiNotes

/-- Keys with their values, the oldest key first: a new value under a key leaves it where it is. -/
abbrev Table (α : Type) := List (Text × α)

namespace Table

variable {α : Type}

def get? (table : Table α) (key : Text) : Option α := table.lookup key

/-- Changes the value under a key, which is put at the end with the value for `none` where the
table does not hold it. -/
def alter (change : Option α → α) (key : Text) : Table α → Table α
  | [] => [(key, change none)]
  | (other, value) :: rest =>
    if other = key then (other, change (some value)) :: rest
    else (other, value) :: alter change key rest

def put (table : Table α) (key : Text) (value : α) : Table α := alter (fun _ => value) key table

def erase (table : Table α) (key : Text) : Table α := table.filter (·.1 ≠ key)

/-- The keys, the oldest first. -/
def keys (table : Table α) : List Text := table.map (·.1)

/-- The entries in order of their keys. -/
def sorted (table : Table α) : Table α := Ordered.sort (fun a b => Text.le a.1 b.1) table

end Table

end ApiNotes
