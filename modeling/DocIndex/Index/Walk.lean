import DocIndex.Comment
import DocIndex.Condition.Element
import DocIndex.Extract.Reading
import DocIndex.Symbol.Basic

/-! # The walk over a tree

One walk in document order finds the symbols and imports of a file. It keeps a stack of the frames
around the current node. A documented type encloses its members in a frame, an extension always does,
and so does each branch of a conditional-compilation block. Whoever opens a frame closes it again, and
closing checks that the frame on top is the one that was opened. -/

namespace DocIndex

/-- How the stack of frames can be out of balance. -/
inductive Imbalance where
  | mismatch (expected found : FrameKind)
  | exhausted (expected : FrameKind)
  | leftBefore (count : Nat)
  | leftAfter (count : Nat)
  deriving DecidableEq, Repr, Inhabited

def Imbalance.message : Imbalance → String
  | mismatch expected found =>
    "context stack imbalance: expected to pop " ++ expected.render ++ " but found " ++ found.render
  | exhausted expected =>
    "context stack imbalance: expected to pop " ++ expected.render ++ " from an empty stack"
  | leftBefore count =>
    "context stack imbalance: " ++ toString count ++ " frame(s) before traversal"
  | leftAfter count =>
    "context stack imbalance: " ++ toString count ++ " frame(s) left after traversal"

/-- What a walk reads and does not change. -/
structure Scene where
  source : List Char
  table : LineTable
  dialect : Markup.Dialect

/-- Where a walk stands: the frames around the current node, the innermost first, and what has been
found so far. -/
structure Walk where
  stack : List Frame := []
  symbols : List Symbol := []
  imports : List Import := []
  deriving DecidableEq, Repr, Inhabited

/-- A part of a walk. -/
abbrev Walk.Action := Walk → Except Imbalance Walk

namespace Walk

/-- Takes the innermost frame off the stack. It has to be of the expected kind. -/
def leave (expected : FrameKind) : Action := fun walk =>
  match walk.stack with
  | [] => .error (.exhausted expected)
  | frame :: rest =>
    if frame.kind = expected then .ok { walk with stack := rest }
    else .error (.mismatch expected frame.kind)

/-- Walks on inside a frame. -/
def within (frame : Frame) (action : Action) : Action := fun walk =>
  match action { walk with stack := frame :: walk.stack } with
  | .ok inner => leave frame.kind inner
  | .error imbalance => .error imbalance

/-- Adds symbols to what has been found. -/
def emit (symbols : List Symbol) (walk : Walk) : Walk :=
  { walk with symbols := walk.symbols ++ symbols }

/-- Adds an import to what has been found. -/
def record (entry : Import) (walk : Walk) : Walk :=
  { walk with imports := walk.imports ++ [entry] }

/-- The frames around the current node, the outermost first. -/
def context (walk : Walk) : List Frame :=
  walk.stack.reverse

/-- Does nothing. -/
def stay : Action := .ok

/-- One part after another. -/
def andThen (first second : Action) : Action := fun walk =>
  match first walk with
  | .ok next => second next
  | .error imbalance => .error imbalance

/-- The frame of a clause of a block that starts at a location. -/
def clauseFrame (location : Location) (branches : List Branch) (branch : Branch) : Frame :=
  .condition ⟨⟨branches, location⟩, branch⟩

end Walk

namespace Scene

/-- The documentation of a node, if the comment above it is accepted. -/
def document? (scene : Scene) (place : Place) : Option Documentation :=
  match Comment.above? scene.source place with
  | some comment => (scene.dialect comment).toOption
  | none => none

/-- The symbols that a node makes of its declarations in a context: all of them if it is documented,
and none otherwise. -/
def symbols (scene : Scene) (place : Place) (context : List Frame)
    (declarations : List Declaration) : List Symbol :=
  match scene.document? place with
  | some documentation =>
    declarations.map fun declaration =>
      ⟨declaration, context, documentation, scene.table.locate place.node.start⟩
  | none => []

/-- Visits a type or protocol. Its members are inside its frame only if it is a symbol itself. -/
def visitContainer (scene : Scene) (place : Place) (declaration : Option Declaration)
    (members : Walk.Action) : Walk.Action := fun walk =>
  match declaration with
  | none => members walk
  | some declaration =>
    match scene.symbols place walk.context [declaration] with
    | [] => members walk
    | symbols =>
      Walk.within (.container (.ofDeclaration declaration)) members (walk.emit symbols)

/-- Visits a node; `children` visits its children. -/
def visit (scene : Scene) (place : Place) (children : Walk.Action) : Walk.Action := fun walk =>
  match place.node.reading scene.source with
  | .container declaration => scene.visitContainer place declaration children walk
  | .extension (some extension) => Walk.within (.extension extension) children walk
  | .extension none => children walk
  | .leaf declarations => .ok (walk.emit (scene.symbols place walk.context declarations))
  | .imported (some entry) => .ok (walk.record entry)
  | .imported none => .ok walk
  | .passage => children walk

mutual

/-- Visits an element whose items are visits already. A block has its location from the directive that
opens it. -/
def visitElement (scene : Scene) : Element (Node × Walk.Action) → Walk.Action
  | .item (_, action) => action
  | .block (directive, _) clauses =>
    scene.visitClauses (scene.table.locate directive.start) (clauses.map (·.1)) clauses

/-- Visits the clauses of a block, each inside its own frame. -/
def visitClauses (scene : Scene) (location : Location) (branches : List Branch) :
    List (Branch × List (Element (Node × Walk.Action))) → Walk.Action
  | [] => Walk.stay
  | (branch, elements) :: rest =>
    Walk.andThen
      (Walk.within (Walk.clauseFrame location branches branch) (scene.visitElements elements))
      (scene.visitClauses location branches rest)

def visitElements (scene : Scene) : List (Element (Node × Walk.Action)) → Walk.Action
  | [] => Walk.stay
  | element :: rest => Walk.andThen (scene.visitElement element) (scene.visitElements rest)

end

mutual

/-- Visits a node and what is below it. -/
def visitNode (scene : Scene) (preceding : List Node) : Node → Walk.Action
  | .mk info children =>
    scene.visit ⟨preceding, .mk info children⟩
      (scene.visitElements (group (scene.childTokens [] children)))

/-- The children of a node as tokens that carry their visits. -/
def childTokens (scene : Scene) (preceding : List Node) :
    List Node → List (Token (Node × Walk.Action))
  | [] => []
  | node :: rest =>
    (node.token? scene.source (node, scene.visitNode preceding node)).toList ++
      scene.childTokens (node :: preceding) rest

end

/-- Visits the children of a node. -/
def visitChildren (scene : Scene) (node : Node) : Walk.Action :=
  scene.visitElements (group (scene.childTokens [] node.children))

/-- Walks over a whole tree, from and to an empty stack. The root itself is no declaration. -/
def walkFrom (scene : Scene) (start : Walk) (root : Node) : Except Imbalance Walk :=
  if start.stack.isEmpty then
    match scene.visitChildren root start with
    | .ok walk => if walk.stack.isEmpty then .ok walk else .error (.leftAfter walk.stack.length)
    | .error imbalance => .error imbalance
  else .error (.leftBefore start.stack.length)

/-- The walk over a tree. -/
def walk (scene : Scene) (root : Node) : Except Imbalance Walk :=
  scene.walkFrom {} root

end Scene

end DocIndex
