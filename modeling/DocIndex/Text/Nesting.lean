import DocIndex.Text.Blank

/-! # Brackets and string literals

A scan of a text keeps how many brackets are open, whether it stands inside a string literal, and
the character before. A character at depth zero and outside a literal is at the top level. Closing
brackets without a partner are passed over, and so is the `>` of an arrow `->`. -/

namespace DocIndex.Text

/-- Where a scan stands between two characters. -/
structure Scan where
  /-- How many brackets are open, without a bound. A counter of 32 bits with a sign says the same as long as
  fewer than `2 ^ 31` brackets are open at once. -/
  depth : Nat
  quoted : Bool
  previous : Char
  deriving DecidableEq, Repr

namespace Scan

/-- The start of a text. -/
def start : Scan := ⟨0, false, '\x00'⟩

/-- Whether the next character is at the top level. -/
def isTop (scan : Scan) : Bool :=
  !scan.quoted && scan.depth == 0

/-- The scan after one more character. A quote preceded by a backslash ends no literal. -/
def step (scan : Scan) (c : Char) : Scan :=
  if scan.quoted then
    { scan with quoted := !(c == '"' && scan.previous != '\\'), previous := c }
  else if c == '"' then { scan with quoted := true, previous := c }
  else if c == '(' || c == '[' || c == '\x7b' || c == '<' then
    { scan with depth := scan.depth + 1, previous := c }
  else if c == '>' && scan.previous == '-' then { scan with previous := c }
  else if c == ')' || c == ']' || c == '\x7d' || c == '>' then
    { scan with depth := scan.depth - 1, previous := c }
  else { scan with previous := c }

end Scan

/-- The texts before and after the first `mark` at the top level, from a scan under way. -/
def cutTopFrom (mark : Char) : Scan → List Char → Option (List Char × List Char)
  | _, [] => none
  | scan, c :: rest =>
    if scan.isTop && c == mark then some ([], rest)
    else (cutTopFrom mark (scan.step c) rest).map fun (before, after) => (c :: before, after)

/-- The texts before and after the first `mark` at the top level. -/
def cutTop (mark : Char) (text : List Char) : Option (List Char × List Char) :=
  cutTopFrom mark .start text

/-- The pieces between the separators at the top level, from a scan under way. Each separator starts
the scan anew. -/
def piecesFrom (separator : Char) : Scan → List Char → List (List Char)
  | _, [] => [[]]
  | scan, c :: rest =>
    if scan.isTop && c == separator then [] :: piecesFrom separator .start rest
    else
      match piecesFrom separator (scan.step c) rest with
      | [] => [[c]]
      | piece :: pieces => (c :: piece) :: pieces

/-- The trimmed pieces between the separators at the top level, without the empty ones. -/
def splitTop (separator : Char) (text : List Char) : List (List Char) :=
  ((piecesFrom separator .start text).map trim).filter (!·.isEmpty)

end DocIndex.Text
