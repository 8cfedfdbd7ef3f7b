import ApiNotes.Value.Basic

/-!
# Values as text

A list or an object is laid out as JSON, one item or member to a line and two columns further
in at each level; characters other than those of ASCII are escaped. A text stands for itself,
and any other value is shown on one line.
-/

namespace ApiNotes.Value

/-- A UTF-16 unit by its four hexadecimal digits. -/
def unitEscape (unit : Nat) : Text := '\x5c' :: 'u' :: Text.hex 4 unit

def jsonChar (c : Char) : Text :=
  let code := c.toNat
  if c = '"' || c = '\x5c' then ['\x5c', c]
  else if c = '\n' then ['\x5c', 'n']
  else if c = '\r' then ['\x5c', 'r']
  else if c = '\t' then ['\x5c', 't']
  else if code = 8 then ['\x5c', 'b']
  else if code = 12 then ['\x5c', 'f']
  else if 32 ≤ code && code < 127 then [c]
  else if code < 0x10000 then unitEscape code
  else
    unitEscape (0xD800 + (code - 0x10000) / 0x400) ++ unitEscape (0xDC00 + (code - 0x10000) % 0x400)

def jsonText (text : Text) : Text := '"' :: text.flatMap jsonChar ++ ['"']

/-- The start of a line `depth` levels in. -/
def newLine (depth : Nat) : Text := '\n' :: List.replicate (2 * depth) ' '

/-- Lines between an opening and a closing bracket at a level; just the brackets where there
are none. -/
def enclose (opening closing : Char) (depth : Nat) (lines : List Text) : Text :=
  if lines.isEmpty then [opening, closing]
  else
    opening :: newLine (depth + 1) ++ (',' :: newLine (depth + 1)).intercalate lines ++
      newLine depth ++ [closing]

/-- A number with a point in JSON, which has words for those that are not finite. -/
def jsonDouble : Double → Text
  | .infinite negative => Double.signText negative ++ "Infinity".toList
  | .undefined => "NaN".toList
  | value => value.text

mutual

/-- A value as JSON, beginning on a line that is `depth` levels in. -/
def layout (depth : Nat) : Value → Text
  | .null => "null".toList
  | .bool true => "true".toList
  | .bool false => "false".toList
  | .int value => Text.ofInt value
  | .double value => jsonDouble value
  | .text value => jsonText value
  | .list items => enclose '[' ']' depth (layoutItems (depth + 1) items)
  | .object members => enclose '\x7b' '\x7d' depth (layoutMembers (depth + 1) members)

def layoutItems (depth : Nat) : List Value → List Text
  | [] => []
  | item :: rest => layout depth item :: layoutItems depth rest

def layoutMembers (depth : Nat) : List (Text × Value) → List Text
  | [] => []
  | (name, value) :: rest =>
    (jsonText name ++ ": ".toList ++ layout depth value) :: layoutMembers depth rest

end

/-- The text in which a tool gives back a value. -/
def render : Value → Text
  | .text value => value
  | .list items => layout 0 (.list items)
  | .object members => layout 0 (.object members)
  | value => inline value

end ApiNotes.Value
