import DocIndex.Extract.Callable
import DocIndex.Extract.EnumerationCase
import DocIndex.Extract.Import
import DocIndex.Extract.PrecedenceGroup
import DocIndex.Extract.Property
import DocIndex.Extract.Type

/-! # Readings

What the index makes of a node: a type with members, an extension, a declaration without members, an
import, or nothing but its children. -/

namespace DocIndex

/-- What a node is to the index. -/
inductive Reading where
  /-- A type or protocol. Without a declaration only its children count. -/
  | container (declaration : Option Declaration)
  /-- An extension. Without a type that it extends only its children count. -/
  | extension (extension : Option Extension)
  /-- Declarations whose children do not matter. -/
  | leaf (declarations : List Declaration)
  /-- An import, whose children do not matter. -/
  | imported (entry : Option Import)
  /-- Any other node. -/
  | passage
  deriving DecidableEq, Repr, Inhabited

/-- The declarations that a node yields, whatever its kind. -/
def Extract.declarations (source : List Char) (node : Node) : List Declaration :=
  (nominal? source node).toList ++ (protocol? source node).toList ++
    (function? source node).toList ++ (initializer? source node).toList ++
    (subscript? source node).toList ++ properties source node ++ enumerationCases source node ++
    (typeAlias? source node).toList ++ (associatedType? source node).toList ++
    (precedenceGroup? source node).toList

open Extract in
/-- The reading of a node. -/
def Node.reading (source : List Char) (node : Node) : Reading :=
  match node.kind with
  | .typeDeclaration =>
    match keyword? source node with
    | some "class" | some "struct" | some "enum" => .container (nominal? source node)
    | some "extension" => .extension (extension? source node)
    | _ => .passage
  | .protocolDeclaration => .container (protocol? source node)
  | .functionDeclaration | .protocolFunctionDeclaration => .leaf (function? source node).toList
  | .initDeclaration => .leaf (initializer? source node).toList
  | .subscriptDeclaration => .leaf (subscript? source node).toList
  | .propertyDeclaration | .protocolPropertyDeclaration => .leaf (properties source node)
  | .enumEntry => .leaf (enumerationCases source node)
  | .typealiasDeclaration => .leaf (typeAlias? source node).toList
  | .associatedTypeDeclaration => .leaf (associatedType? source node).toList
  | .precedenceGroupDeclaration => .leaf (precedenceGroup? source node).toList
  | .importDeclaration => .imported (import? source node)
  | .deinitDeclaration | .operatorDeclaration => .leaf []
  | _ => .passage

end DocIndex
