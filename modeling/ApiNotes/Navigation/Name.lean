import ApiNotes.Text.Basic

namespace ApiNotes.Navigation

/-- A line without the stretch from its first opening bracket to its last closing one. -/
def withoutArguments (line : Text) : Text :=
  let more := line.dropWhile (· ≠ '[')
  if more.contains ']' then
    line.takeWhile (· ≠ '[') ++ (more.reverse.takeWhile (· ≠ ']')).reverse
  else line

/-- The package, if one is named, and the type that a name stands for. -/
def splitName (name : Text) : Option Text × Text :=
  let base := ['\n'].intercalate ((name.splitOn '\n').map withoutArguments)
  if base.contains '.' then (some (Text.beforeLast '.' base), Text.afterLast '.' base)
  else (none, base)

end ApiNotes.Navigation
