/-! # Paths

A path is a text in which `/` separates the components. Repeated separators, a trailing one, and `.`
anywhere but at the start do not count; `..` is not resolved. Two paths with the same components are
the same path, however they are spelled. -/

namespace DocIndex

/-- A path as it is spelled. -/
structure Path where
  text : String
  deriving DecidableEq, Repr, Inhabited

namespace Path

/-- A component that counts. -/
inductive Component where
  | root
  | current
  | parent
  | name (text : String)
  deriving DecidableEq, Repr, Inhabited

/-- The text of a component. -/
def Component.text : Component → String
  | root => "/"
  | current => "."
  | parent => ".."
  | name text => text

/-- The pieces of a text between separators. -/
def split (text : List Char) : List (List Char) :=
  text.splitOnP (· == '/')

def join (pieces : List (List Char)) : List Char :=
  ['/'].intercalate pieces

/-- Splits off what a path starts with before its first piece: a separator, or a `.` on its own. -/
def splitLead : List Char → List Char × List Char
  | '/' :: rest => (['/'], rest)
  | ['.'] => (['.'], [])
  | '.' :: '/' :: rest => (['.'], '/' :: rest)
  | text => ([], text)

/-- The component that a lead stands for. -/
def leadComponent : List Char → List Component
  | ['/'] => [.root]
  | ['.'] => [.current]
  | _ => []

/-- Whether a piece is a component. -/
def counts (piece : List Char) : Bool :=
  piece != [] && piece != ['.']

def pieceComponent (piece : List Char) : Component :=
  if piece = ['.', '.'] then .parent else .name (String.ofList piece)

def lead (path : Path) : List Char :=
  (splitLead path.text.toList).1

/-- The pieces after the lead, whether they count or not. -/
def pieces (path : Path) : List (List Char) :=
  split (splitLead path.text.toList).2

/-- The components of a path. -/
def components (path : Path) : List Component :=
  leadComponent path.lead ++ (path.pieces.filter counts).map pieceComponent

/-- Pieces without those at the start that do not count. -/
def trimLeft (pieces : List (List Char)) : List (List Char) :=
  pieces.dropWhile (!counts ·)

/-- Pieces without those at the end that do not count. -/
def trimRight (pieces : List (List Char)) : List (List Char) :=
  (pieces.reverse.dropWhile (!counts ·)).reverse

/-- Pieces without the first `n` that count. -/
def dropPieces : Nat → List (List Char) → List (List Char)
  | 0, pieces => pieces
  | _ + 1, [] => []
  | n + 1, piece :: rest =>
    if counts piece then dropPieces n rest else dropPieces (n + 1) rest

/-- The text of a path below a base: what follows the components of the base, without the separators
around it. -/
def relativeTo? (path base : Path) : Option Path :=
  if base.components.isPrefixOf path.components then
    match base.components.length with
    | 0 => some ⟨String.ofList (path.lead ++ join (trimRight path.pieces))⟩
    | n + 1 =>
      let skipped := if path.lead.isEmpty then n + 1 else n
      some ⟨String.ofList (join (trimRight (trimLeft (dropPieces skipped path.pieces))))⟩
  else none

/-- The path without its last component. -/
def parent (path : Path) : Path :=
  ⟨String.ofList (path.lead ++ join (trimRight (trimRight path.pieces).dropLast))⟩

/-- A path and a relative one below it. -/
def child (path : Path) (name : String) : Path :=
  if path.text.isEmpty then ⟨name⟩
  else if path.text.toList.getLast? = some '/' then ⟨path.text ++ name⟩
  else ⟨path.text ++ "/" ++ name⟩

/-- The name of a file: the last component, unless it is a step up or the start. -/
def fileName? (path : Path) : Option String :=
  match path.components.getLast? with
  | some (.name text) => some text
  | _ => none

/-- The part of a file name after its last dot. A dot at the start does not count. -/
def extension? (path : Path) : Option String :=
  path.fileName?.bind fun name =>
    let reversed := name.toList.reverse
    match reversed.dropWhile (· != '.') with
    | '.' :: _ :: _ => some (String.ofList (reversed.takeWhile (· != '.')).reverse)
    | _ => none

/-- Whether a path names a Swift file. -/
def isSwift (path : Path) : Bool :=
  path.extension? == some "swift"

/-- Whether a component other than `.` and `..` starts with a dot. -/
def isHidden (path : Path) : Bool :=
  path.components.any fun component =>
    match component with
    | .name text => text.toList.head? == some '.'
    | _ => false

end Path

end DocIndex
