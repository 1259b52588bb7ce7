import DocIndex.Files.Path
import DocIndex.Text.Blank
import DocIndex.Text.Cut
import DocIndex.Text.Line

/-! # Ignore patterns

A pattern that ends in `/` stands for a component of that name, one that starts with `*` for the end
of a path, and any other for a part of it. -/

namespace DocIndex.Ignore

open Text

/-- A path as patterns see it, with `/` for every separator. -/
def normalize (path : Path) : List Char :=
  path.text.toList.map fun c => if c = '\\' then '/' else c

/-- Whether a pattern matches a normalized path. -/
def hits (path pattern : List Char) : Bool :=
  if pattern.getLast? = some '/' then
    let name := pattern.dropLast
    !name.isEmpty && (Path.split path).contains name
  else
    match pattern with
    | '*' :: ending => ending.isSuffixOf path
    | part => hasPart part path

/-- Whether one of some patterns matches a path. -/
def isIgnored (patterns : List String) (path : Path) : Bool :=
  patterns.any fun pattern => hits (normalize path) pattern.toList

/-- The name of the file that lists the patterns of a directory. -/
def fileName : String := ".swiftdocignore"

/-- The patterns in the text of an ignore file: its lines, without blank ones and comments. -/
def patterns (text : String) : List String :=
  (((lines text.toList).map trim).filter fun line =>
    !line.isEmpty && line.head? != some '#').map String.ofList

end DocIndex.Ignore
