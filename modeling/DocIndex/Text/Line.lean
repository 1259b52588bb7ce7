/-! # Lines

A line ends at a line feed, which takes a carriage return right before it along. Text after the
last line feed is a line of its own if there is any. -/

namespace DocIndex.Text

/-- A line without the one carriage return at its end. -/
def dropReturn (line : List Char) : List Char :=
  if line.getLast? = some '\r' then line.dropLast else line

/-- The lines made by the pieces between line feeds; the last piece ended at no line feed. -/
def linesOfPieces : List (List Char) → List (List Char)
  | [] => []
  | [last] => if last.isEmpty then [] else [last]
  | piece :: next :: rest => dropReturn piece :: linesOfPieces (next :: rest)

/-- The lines of a text. -/
def lines (text : List Char) : List (List Char) :=
  linesOfPieces (text.splitOnP (· == '\n'))

end DocIndex.Text
