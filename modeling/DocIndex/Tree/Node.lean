import DocIndex.Text.Blank
import DocIndex.Text.Bytes
import DocIndex.Tree.Kind

/-! # Syntax trees

A concrete syntax tree over a source text. A node spans a range of bytes and lists all its children
in order, punctuation and comments included. -/

namespace DocIndex

/-- What a node says of itself. A child can answer to more roles than the one it is listed with:
`lookups` gives, for a role that the listed roles answer wrongly, the place of the right child. -/
structure NodeInfo where
  kind : NodeKind
  role : Option NodeRole
  named : Bool
  isError : Bool
  isMissing : Bool
  hasError : Bool
  start : Nat
  stop : Nat
  lookups : List (NodeRole × Option Nat)
  deriving DecidableEq, Repr, Inhabited

/-- A node of a syntax tree with its children. -/
inductive Node where
  | mk (info : NodeInfo) (children : List Node)
  deriving Repr, Inhabited

namespace Node

def info : Node → NodeInfo
  | mk info _ => info

def children : Node → List Node
  | mk _ children => children

/-- A node of which nothing but its kind and place is said. -/
def bare (kind : NodeKind) (start stop : Nat) : Node :=
  mk ⟨kind, none, true, false, false, false, start, stop, []⟩ []

def kind (node : Node) : NodeKind := node.info.kind

/-- What the node is to its parent. -/
def role (node : Node) : Option NodeRole := node.info.role

/-- Whether the node stands for a rule of the grammar and not for a bare token. -/
def named (node : Node) : Bool := node.info.named

/-- Whether the node or something below it could not be parsed. -/
def hasError (node : Node) : Bool := node.info.hasError

/-- The byte at which the node starts. -/
def start (node : Node) : Nat := node.info.start

/-- The byte at which the node ends. -/
def stop (node : Node) : Nat := node.info.stop

/-- Whether the node itself could not be parsed, or was assumed where the source has nothing. -/
def isFault (node : Node) : Bool := node.info.isError || node.info.isMissing

def namedChildren (node : Node) : List Node :=
  node.children.filter (·.named)

/-- The first child of one of the given kinds. -/
def childOfKind? (node : Node) (kinds : List NodeKind) : Option Node :=
  node.children.find? (kinds.contains ·.kind)

/-- The children of one of the given kinds. -/
def childrenOfKind (node : Node) (kinds : List NodeKind) : List Node :=
  node.children.filter (kinds.contains ·.kind)

/-- The child with a given role. -/
def childWithRole? (node : Node) (role : NodeRole) : Option Node :=
  match node.info.lookups.lookup role with
  | some place => place.bind fun index => node.children[index]?
  | none => node.children.find? (·.role == some role)

/-- The source text that the node spans. -/
def text (source : List Char) (node : Node) : List Char :=
  Text.slice source node.start node.stop

/-- The source text that the node spans, with its blanks reduced to single spaces. -/
def compactText (source : List Char) (node : Node) : List Char :=
  Text.compact (node.text source)

/-- The source text of the node as a string. -/
def string (source : List Char) (node : Node) : String :=
  String.ofList (node.text source)

/-- The source text of the node as a string, with its blanks reduced to single spaces. -/
def compactString (source : List Char) (node : Node) : String :=
  String.ofList (node.compactText source)

end Node

/-- A node together with the siblings before it, the nearest first. -/
structure Place where
  preceding : List Node
  node : Node
  deriving Repr, Inhabited

mutual

/-- A node and everything below it, parents before children and children from left to right. -/
def Node.placesAfter (preceding : List Node) : Node → List Place
  | .mk info children => ⟨preceding, .mk info children⟩ :: placesOfSiblings [] children

def placesOfSiblings (preceding : List Node) : List Node → List Place
  | [] => []
  | node :: rest => node.placesAfter preceding ++ placesOfSiblings (node :: preceding) rest

end

/-- Every node of a tree in document order. -/
def Node.places (root : Node) : List Place :=
  root.placesAfter []

end DocIndex
