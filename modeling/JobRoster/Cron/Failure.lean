import JobRoster.Cron.Schedule

/-!
# Reports of unreadable expressions

The report of a failure shows the expression, a caret under the place of the failure, and the cause. If the
expression has one line only, the caret stands as many columns to the right as there are bytes before the place. If
it has more, the report names the line and the column, counted in characters, and shows that line alone.
-/

namespace JobRoster.Cron

/-- The number of bytes of a text. -/
def byteCount (cs : List Char) : Nat := cs.foldr (fun c size => c.utf8Size + size) 0

namespace Failure

/-- The text before the place of a failure. -/
def readPart (f : Failure) (source : List Char) : List Char :=
  source.take (source.length - f.unread.length)

/-- The text of the cause, which may be empty. -/
def causeText (f : Failure) : List Char :=
  match f.cause with
  | some c => c.message.toList
  | none => []

/-- The line and the column of a place, both counted from zero. The end of the text is in the line of the last
character, one column after it. -/
def position (f : Failure) (source : List Char) : Nat × Nat :=
  let before := f.readPart source
  let (counted, extra) := if f.unread.isEmpty then (before.dropLast, 1) else (before, 0)
  let line := counted.count '\n'
  let column := (counted.reverse.takeWhile (· ≠ '\n')).length
  (line, column + extra)

/-- The lines of a text. -/
def lines (source : List Char) : List (List Char) := source.splitOn '\n'

/-- A number of spaces. -/
def spaces (n : Nat) : List Char := List.replicate n ' '

/-- The report on an expression of one line. -/
def reportOneLine (f : Failure) (source : List Char) : List Char :=
  source ++ ['\n'] ++ spaces (byteCount (f.readPart source)) ++ ['^', '\n'] ++ f.causeText

/-- The report on an expression of several lines. -/
def reportLines (f : Failure) (source : List Char) : List Char :=
  let (line, column) := f.position source
  let number := Nat.toDigits 10 (line + 1)
  let gutter := spaces number.length
  let shown := ((lines source)[line]?).getD []
  "parse error at line ".toList ++ number ++ ", column ".toList ++ Nat.toDigits 10 (column + 1) ++ ['\n']
    ++ gutter ++ [' ', '|', '\n']
    ++ number ++ [' ', '|', ' '] ++ shown ++ ['\n']
    ++ gutter ++ [' ', '|', ' '] ++ spaces column ++ ['^', '\n']
    ++ f.causeText

/-- The report on an expression. -/
def report (f : Failure) (source : List Char) : String :=
  String.ofList (if source.contains '\n' then f.reportLines source else f.reportOneLine source)

end Failure

end JobRoster.Cron
