import DocIndex.Extract.Heading

/-! # Precedence groups -/

namespace DocIndex.Extract

open Text

variable (source : List Char)

/-- What the attributes of a precedence group say so far. -/
structure PrecedenceParts where
  assignment : Option Bool := none
  associativity : Option String := none
  relations : List PrecedenceRelation := []
  deriving DecidableEq, Repr

/-- Takes up one attribute: a key and a value around the first colon. -/
def PrecedenceParts.step (parts : PrecedenceParts) (entry : Node) : PrecedenceParts :=
  match cutAt ':' (entry.compactText source) with
  | none => parts
  | some (key, value) =>
    let key := String.ofList (trim key)
    let value := trim value
    if key = "assignment" then { parts with assignment := some (value == "true".toList) }
    else if key = "associativity" then { parts with associativity := some (String.ofList value) }
    else
      { parts with
        relations := parts.relations ++ [⟨key, (splitTop ',' value).map String.ofList⟩] }

/-- The attributes of a precedence group. -/
def precedenceParts (node : Node) : PrecedenceParts :=
  let attributes :=
    ((node.childOfKind? [.precedenceGroupAttributes]).map
      (·.childrenOfKind [.precedenceGroupAttribute])).getD []
  attributes.foldl (PrecedenceParts.step source) {}

/-- A precedence group. -/
def precedenceGroup? (node : Node) : Option Declaration := do
  if node.kind ≠ .precedenceGroupDeclaration then none
  else
    let name ← node.childWithRole? .name <|> node.childOfKind? [.simpleIdentifier]
    let parts := precedenceParts source node
    return {
      heading := heading source node "precedencegroup"
      body := .precedenceGroup (name.string source) parts.assignment parts.associativity
        parts.relations }

end DocIndex.Extract
