import DocIndex.Extract.Heading

/-! # Types, protocols and extensions -/

namespace DocIndex.Extract

variable (source : List Char)

/-- The type that a keyword introduces. -/
def nominalSort? : String → Option NominalSort
  | "class" => some .classType
  | "struct" => some .structureType
  | "enum" => some .enumerationType
  | _ => none

/-- A class, structure or enumeration. -/
def nominal? (node : Node) : Option Declaration := do
  if node.kind ≠ .typeDeclaration then none
  else
    let keyword ← keyword? source node
    let name ← typeName? source node
    let sort ← nominalSort? keyword
    return {
      heading := heading source node keyword
      body := .nominal sort name (generics source node) (inheritance source node)
        (requirements source node) }

/-- A protocol. -/
def protocol? (node : Node) : Option Declaration := do
  if node.kind ≠ .protocolDeclaration then none
  else
    let name ← typeName? source node
    return {
      heading := heading source node "protocol"
      body := .protocolType name (inheritance source node) (requirements source node) }

/-- An associated type of a protocol. -/
def associatedType? (node : Node) : Option Declaration := do
  if node.kind ≠ .associatedTypeDeclaration then none
  else
    let name ← typeName? source node
    let inherited := (node.childWithRole? .mustInherit).map (·.compactString source)
    let defaultType := (node.childWithRole? .defaultValue).map (·.compactString source)
    return {
      heading := heading source node "associatedtype"
      body := .associatedType name inherited.toList defaultType (requirements source node) }

/-- A type alias. Without a node for the aliased type it is what follows the equal sign. -/
def typeAlias? (node : Node) : Option Declaration := do
  if node.kind ≠ .typealiasDeclaration then none
  else
    let name ← typeName? source node
    let type :=
      match node.childWithRole? .value with
      | some value => some (value.compactString source)
      | none =>
        (Text.cutAt '=' (node.compactText source)).map fun (_, value) =>
          String.ofList (Text.trim value)
    return {
      heading := heading source node "typealias"
      body := .typeAlias name (generics source node) type }

/-- An extension. -/
def extension? (node : Node) : Option Extension := do
  if node.kind ≠ .typeDeclaration then none
  else
    let keyword ← keyword? source node
    if keyword ≠ "extension" then none
    else
      let extendedType ← typeName? source node
      return ⟨heading source node keyword, extendedType, inheritance source node,
        requirements source node⟩

end DocIndex.Extract
