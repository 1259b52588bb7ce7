import DocIndex.Tree.Node

/-! # Documentation comments

A declaration is documented by the run of documentation comments right above it. Going up from the
declaration, the run ends at a sibling that is no comment, at an empty line, at a comment that
follows other code on its line, and at a comment that is no documentation. -/

namespace DocIndex.Comment

/-- Whether a comment is documentation: it starts with `///` or `/**`, but with neither `////` nor
`/**/`. -/
def isDocumentation (text : List Char) : Bool :=
  let text := Text.trimStart text
  !("////".toList.isPrefixOf text || "/**/".toList.isPrefixOf text) &&
    ("///".toList.isPrefixOf text || "/**".toList.isPrefixOf text)

/-- Whether only blanks stand before a byte on its line. -/
def standsAlone (source : List Char) (offset : Nat) : Bool :=
  Text.isBlankText (Text.lineBefore source offset)

/-- Whether a sibling is a documentation comment that reaches down to `row`: it stands on lines of
its own, the last of them at most one above the row. -/
def belongsTo (source : List Char) (row : Nat) (sibling : Node) : Bool :=
  sibling.kind.isComment && row ≤ Text.row source sibling.stop + 1 &&
    standsAlone source sibling.start && isDocumentation (sibling.text source)

/-- The comments among `preceding`, the nearest first, that lead to `row`, the nearest first. -/
def run (source : List Char) (row : Nat) : List Node → List Node
  | [] => []
  | sibling :: rest =>
    if belongsTo source row sibling then
      sibling :: run source (Text.row source sibling.start) rest
    else []

/-- The text of the documentation comments above a node, from top to bottom, one per line. -/
def above? (source : List Char) (place : Place) : Option String :=
  match run source (Text.row source place.node.start) place.preceding with
  | [] => none
  | comments =>
    some (String.ofList (['\n'].intercalate (comments.reverse.map (·.text source))))

end DocIndex.Comment
