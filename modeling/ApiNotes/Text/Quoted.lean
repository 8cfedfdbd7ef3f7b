import ApiNotes.Text.Basic
import ApiNotes.Text.UnprintableSet

namespace ApiNotes.Text

/-- The last `width` hexadecimal digits of a number, in lower case. -/
def hex : Nat → Nat → Text
  | 0, _ => []
  | width + 1, n => hex width (n / 16) ++ [Nat.digitChar (n % 16)]

def quoteChar (quote c : Char) : Text :=
  let code := c.toNat
  if c = quote || c = '\x5c' then ['\x5c', c]
  else if c = '\t' then ['\x5c', 't']
  else if c = '\n' then ['\x5c', 'n']
  else if c = '\r' then ['\x5c', 'r']
  else if !unprintableSet.contains code then [c]
  else if code < 0x100 then '\x5c' :: 'x' :: hex 2 code
  else if code < 0x10000 then '\x5c' :: 'u' :: hex 4 code
  else '\x5c' :: 'U' :: hex 8 code

/-- A text between single quotes, or double ones where it has a single quote and no double one,
with everything that could be mistaken for something else spelled by an escape. -/
def quoted (text : Text) : Text :=
  let quote := if text.contains '\x27' && !text.contains '"' then '"' else '\x27'
  quote :: text.flatMap (quoteChar quote) ++ [quote]

end ApiNotes.Text
