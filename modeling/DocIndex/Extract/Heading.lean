import DocIndex.Declaration.Basic
import DocIndex.Tree.Node

/-! # What declarations have in common

Attributes and modifiers, type parameters, inherited types and requirements, read from the children
of a declaration node. -/

namespace DocIndex.Extract

open Text

variable (source : List Char)

/-- The attributes in a list of modifier nodes. -/
def attributesOf (nodes : List Node) : List Attribute :=
  (nodes.filter (·.kind == .attributeUse)).filterMap fun node =>
    Attribute.parse? (node.compactText source)

/-- The modifiers in a list of modifier nodes: whatever is no attribute. -/
def modifiersOf (nodes : List Node) : List Modifier :=
  (nodes.filter (·.kind != .attributeUse)).map fun node => Modifier.parse (node.compactText source)

/-- The modifier that a bare keyword among the children of a declaration stands for. The `class` of a
class declaration is none. -/
def bareModifier? (parent : NodeKind) (child : Node) : Option Modifier :=
  if child.named then none
  else if child.kind == .indirectKeyword then some (.plain "indirect")
  else if child.kind == .classKeyword && parent != .typeDeclaration then some (.plain "class")
  else none

/-- The nodes in the modifier list of a declaration. -/
def modifierNodes (node : Node) : List Node :=
  match node.childOfKind? [.modifiers] with
  | some list => list.namedChildren
  | none => []

def attributes (node : Node) : List Attribute :=
  attributesOf source (modifierNodes node)

/-- The modifiers of the list, then the bare keywords outside it. -/
def modifiers (node : Node) : List Modifier :=
  modifiersOf source (modifierNodes node) ++ node.children.filterMap (bareModifier? node.kind)

def heading (node : Node) (keyword : String) : Heading :=
  ⟨attributes source node, modifiers source node, keyword⟩

/-- The keyword that introduces a type or extension. -/
def keyword? (node : Node) : Option String :=
  match node.childWithRole? .declarationKind with
  | some keyword => some (keyword.string source)
  | none =>
    (node.childOfKind? [.classKeyword, .structKeyword, .actorKeyword, .enumKeyword,
      .extensionKeyword, .protocolKeyword]).map (·.kind.name)

/-- The name of a type. -/
def typeName? (node : Node) : Option String :=
  match node.childWithRole? .name with
  | some name => some (name.compactString source)
  | none => (node.childOfKind? [.typeIdentifier, .userType]).map (·.compactString source)

def generics (node : Node) : List GenericParameter :=
  match node.childOfKind? [.typeParameters] with
  | some list =>
    (list.childrenOfKind [.typeParameter]).filterMap fun parameter =>
      GenericParameter.parse? (parameter.compactText source)
  | none => []

/-- The inherited types: one specifier each, or all of them in one clause. -/
def inheritance (node : Node) : List String :=
  match node.childrenOfKind [.inheritanceSpecifier] with
  | [] =>
    match node.childOfKind? [.inheritanceClause] with
    | some clause =>
      (splitTop ',' ((clause.compactText source).dropWhile (· == ':'))).map String.ofList
    | none => []
  | specifiers => specifiers.map (·.compactString source)

/-- The nodes that hold requirements: those of the declaration, then those of its type parameter
list. -/
def constraintNodes (node : Node) : List Node :=
  node.childrenOfKind [.typeConstraints] ++
    match node.childOfKind? [.typeParameters] with
    | some list => list.childrenOfKind [.typeConstraints]
    | none => []

def requirements (node : Node) : List Requirement :=
  (constraintNodes node).flatMap fun constraints =>
    Requirement.parseAll (constraints.compactText source)

end DocIndex.Extract
