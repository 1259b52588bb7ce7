import DocIndex.Markup.Documentation
import DocIndex.Text.Blank
import DocIndex.Text.Cut
import DocIndex.Text.Line

/-! # The body of a comment

The body is what remains of a comment without its delimiters: `///` before each line, or a block
from `/**` to `*/`, with or without a margin of stars. The body loses the indent that its lines
share, and the empty lines around it. -/

namespace DocIndex.Markup

open Text

/-- A line of text, without its end. -/
abbrev Line := List Char

/-- Whether a character counts as indent. Other blanks are text here. -/
def isIndent (c : Char) : Bool :=
  c == ' ' || c == '\t'

/-- The width of the indent of a line. -/
def indentWidth (line : Line) : Nat :=
  (line.takeWhile isIndent).length

/-- Whether every line that is not blank starts with a star. -/
def hasMargin (block : List Line) : Bool :=
  (block.filter (!isBlankText ·)).all fun line => (trimStart line).head? == some '*'

/-- A line without the stars before it and the space after them. -/
def dropMargin (line : Line) : Line :=
  dropStart [' '] ((trimStart line).dropWhile (· == '*'))

/-- The lines of a block without their margin, if they have one. -/
def stripMargin (block : List Line) : List Line :=
  if hasMargin block then block.map dropMargin else block

/-- The lines inside the delimiters, where `block` holds the lines so far of a block that is open.
A block that is never closed counts up to the end; what follows the end of a block on its line does
not. -/
def stripDelimiters : Option (List Line) → List Line → Except Error (List Line)
  | none, [] => .ok []
  | some block, [] => .ok (stripMargin block)
  | some block, line :: rest =>
    match cut ['*', '/'] line with
    | some (before, _) =>
      (stripDelimiters none rest).map (stripMargin (block ++ [before]) ++ ·)
    | none => stripDelimiters (some (block ++ [line])) rest
  | none, line :: rest =>
    match "///".toList.isPrefixOf? (trimStart line) with
    | some text =>
      if text.head? == some '/' then .error .notDocumentation
      else (stripDelimiters none rest).map (dropStart [' '] text :: ·)
    | none =>
      match "/**".toList.isPrefixOf? (trimStart line) with
      | some text =>
        match cut ['*', '/'] text with
        | some (before, _) => (stripDelimiters none rest).map (trim before :: ·)
        | none => stripDelimiters (some [text]) rest
      | none =>
        if isBlankText line then stripDelimiters none rest else .error .notDocumentation

/-- The least of some numbers, and zero for none. -/
def least : List Nat → Nat
  | [] => 0
  | n :: rest => rest.foldl min n

/-- The indent that the lines share, blank lines aside. -/
def commonIndent (lines : List Line) : Nat :=
  least ((lines.filter (!isBlankText ·)).map indentWidth)

/-- A line without `width` characters of indent and without blanks at its end. -/
def dedentLine (width : Nat) (line : Line) : Line :=
  if isBlankText line then [] else trimEnd (line.drop width)

/-- The lines from the first to the last that is not empty. -/
def dropEmptyEnds (lines : List Line) : List Line :=
  ((lines.dropWhile (·.isEmpty)).reverse.dropWhile (·.isEmpty)).reverse

/-- The lines without the indent that they share and without empty lines at either end. -/
def dedent (lines : List Line) : List Line :=
  dropEmptyEnds (lines.map (dedentLine (commonIndent lines)))

/-- The lines of the body of a comment. -/
def body (comment : List Char) : Except Error (List Line) :=
  (stripDelimiters none (lines comment)).map dedent

end DocIndex.Markup
