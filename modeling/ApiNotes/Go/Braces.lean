import ApiNotes.Text.Basic

/-!
# Matching braces

Where the braces that open on a line, or after it, are closed again. Braces in comments and
in quoted texts do not count. A block comment goes on over line ends; a text in double quotes
or backticks ends at the latest with its line.
-/

namespace ApiNotes.Go

/-- What the next character of a scan belongs to. -/
inductive BraceMode where
  | code
  /-- The star of an opening `/*`. -/
  | opening
  /-- The inside of a block comment. -/
  | comment
  /-- The slash of a closing `*/`. -/
  | closing
  /-- A text in the given quotes. -/
  | quoted (quote : Char)
  /-- The rest of a line after `//`. -/
  | lineComment
  deriving DecidableEq

/-- A scan for the closing brace: how many more braces were opened than closed, whether one
was opened at all, and whether all are closed. -/
structure BraceScan where
  mode : BraceMode
  depth : Int
  opened : Bool
  closed : Bool
  deriving DecidableEq

namespace BraceScan

def start : BraceScan := ⟨.code, 0, false, false⟩

/-- One character outside comments and quotes, and the character after it. -/
def codeStep (scan : BraceScan) (c : Char) (next : Option Char) : BraceScan :=
  if c = '/' && next = some '/' then { scan with mode := .lineComment }
  else if c = '/' && next = some '*' then { scan with mode := .opening }
  else if c = '"' || c = '\x60' then { scan with mode := .quoted c }
  else if c = '{' then { scan with depth := scan.depth + 1, opened := true }
  else if c = '}' then
    { scan with depth := scan.depth - 1, closed := scan.opened && scan.depth = 1 }
  else scan

def step (scan : BraceScan) (c : Char) (next : Option Char) : BraceScan :=
  match scan.mode with
  | .code => codeStep scan c next
  | .opening => { scan with mode := .comment }
  | .comment => if c = '*' && next = some '/' then { scan with mode := .closing } else scan
  | .closing => { scan with mode := .code }
  | .quoted quote => if c = quote then { scan with mode := .code } else scan
  | .lineComment => scan

/-- The rest of a line; the scan stops at the closing brace. -/
def line (scan : BraceScan) : Text → BraceScan
  | [] => if scan.mode = .comment then scan else { scan with mode := .code }
  | c :: rest =>
    let scan := scan.step c rest.head?
    if scan.closed then scan else scan.line rest

/-- How many lines lie between the first line and the one on which the scan closes; all of
them where it does not close. -/
def linesToClose (scan : BraceScan) : List Text → Nat
  | [] | [_] => 0
  | first :: second :: rest =>
    let scan := scan.line first
    if scan.closed then 0 else scan.linesToClose (second :: rest) + 1

end BraceScan

end ApiNotes.Go
