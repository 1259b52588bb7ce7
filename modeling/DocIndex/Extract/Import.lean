import DocIndex.Extract.Heading

/-! # Imports -/

namespace DocIndex.Extract

open Text

variable (source : List Char)

/-- The keywords that can say what kind of thing is imported. -/
def importKinds : List NodeKind :=
  [.typealiasKeyword, .structKeyword, .classKeyword, .enumKeyword, .protocolKeyword, .letKeyword,
    .varKeyword, .funcKeyword]

/-- An import. -/
def import? (node : Node) : Option Import := do
  if node.kind ≠ .importDeclaration then none
  else
    let pathNode ← node.childOfKind? [.identifier]
    let path := (pathNode.text source).filter (!isBlank ·)
    if path.isEmpty then none
    else
      let importKind :=
        (node.children.takeWhile (·.kind != .identifier)).find? fun child =>
          !child.named && importKinds.contains child.kind
      return ⟨heading source node "import", importKind.map (·.kind.name), String.ofList path⟩

end DocIndex.Extract
