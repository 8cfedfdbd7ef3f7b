import ApiNotes.Number.Basic
import ApiNotes.Text.Quoted

namespace ApiNotes

/-- What tools take and give back. The members of an object keep the order in which they were put. -/
inductive Value where
  | null
  | bool (value : Bool)
  | int (value : Int)
  | double (value : Double)
  | text (value : Text)
  | list (items : List Value)
  | object (members : List (Text × Value))

namespace Value

/-- The name of the kind of a value, as messages call it. -/
def kindText : Value → Text
  | .null => "NoneType".toList
  | .bool _ => "bool".toList
  | .int _ => "int".toList
  | .double _ => "float".toList
  | .text _ => "str".toList
  | .list _ => "list".toList
  | .object _ => "dict".toList

/-- Whether a value counts as given: neither zero, nor false, nor empty. -/
def isGiven : Value → Bool
  | .null => false
  | .bool value => value
  | .int value => value != 0
  | .double value => !value.isZero
  | .text value => value != []
  | .list items => !items.isEmpty
  | .object members => !members.isEmpty

/-- The number that a value counts as. -/
def number? : Value → Option Number
  | .int value => some (.int value)
  | .bool value => some (.int value.toNat)
  | .double value => some (.double value)
  | _ => none

mutual

/-- A value on one line, texts between quotes. -/
def inline : Value → Text
  | .null => "None".toList
  | .bool true => "True".toList
  | .bool false => "False".toList
  | .int value => Text.ofInt value
  | .double value => value.text
  | .text value => Text.quoted value
  | .list items => '[' :: ", ".toList.intercalate (inlineItems items) ++ [']']
  | .object members => '\x7b' :: ", ".toList.intercalate (inlineMembers members) ++ ['\x7d']

def inlineItems : List Value → List Text
  | [] => []
  | item :: rest => inline item :: inlineItems rest

def inlineMembers : List (Text × Value) → List Text
  | [] => []
  | (name, value) :: rest =>
    (Text.quoted name ++ ": ".toList ++ inline value) :: inlineMembers rest

end

/-- A value as part of a message, a text without quotes. -/
def shown : Value → Text
  | .text value => value
  | value => inline value

end Value

end ApiNotes
