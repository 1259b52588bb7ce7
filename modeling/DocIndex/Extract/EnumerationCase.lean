import DocIndex.Extract.Heading

/-! # Enumeration cases -/

namespace DocIndex.Extract

variable (source : List Char)

/-- One case of an entry, which can name several. -/
structure CaseEntry where
  name : String
  associated : Option (List Parameter) := none
  raw : Option String := none
  deriving DecidableEq, Repr

/-- Takes up one child of an entry; the cases come with the last one first. -/
def caseStep (cases : List CaseEntry) (child : Node) : List CaseEntry :=
  if child.role = some .name ∨ (child.role = none ∧ child.kind = .simpleIdentifier) then
    { name := child.string source } :: cases
  else if child.role = some .dataContents ∨ child.kind = .enumTypeParameters then
    cases.modifyHead fun entry =>
      { entry with associated := some (Parameter.parseAssociated (child.compactText source)) }
  else if child.role = some .rawValue then
    cases.modifyHead fun entry => { entry with raw := some (child.compactString source) }
  else cases

/-- The cases of an enumeration that an entry names. -/
def enumerationCases (node : Node) : List Declaration :=
  if node.kind ≠ .enumEntry then []
  else
    (node.children.foldl (caseStep source) []).reverse.map fun entry =>
      { heading := heading source node "case"
        body := .enumerationCase entry.name entry.associated entry.raw }

end DocIndex.Extract
