import DocIndex.Extract.Heading

/-! # Functions, initializers and subscripts -/

namespace DocIndex.Extract

open Text

variable (source : List Char)

/-! ### Parameters -/

/-- The parts of a parameter gathered from its children. -/
structure ParameterParts where
  names : List String := []
  modifiers : List String := []
  type : Option String := none
  variadic : Bool := false
  /-- Whether the colon between names and type has been passed. -/
  afterColon : Bool := false
  deriving DecidableEq, Repr

/-- Takes up one child of a parameter node. Identifiers before the colon are names; the first named
child after it is the type, unless a child has that role. -/
def ParameterParts.step (parts : ParameterParts) (child : Node) : ParameterParts :=
  if child.role = some .type then { parts with type := some (child.compactString source) }
  else if child.kind = .colon then { parts with afterColon := true }
  else if child.kind = .parameterModifiers ∨ child.kind = .parameterModifier then
    { parts with modifiers := parts.modifiers ++ [child.compactString source] }
  else if child.kind = .ellipsis then { parts with variadic := true }
  else if child.kind = .simpleIdentifier ∧ !parts.afterColon then
    { parts with names := parts.names ++ [child.string source] }
  else if parts.afterColon ∧ child.named ∧ parts.type.isNone then
    { parts with type := some (child.compactString source) }
  else parts

/-- The type with the modifiers of the parameter before it. -/
def ParameterParts.fullType (parts : ParameterParts) : Option String :=
  parts.type.map fun type =>
    if parts.modifiers.isEmpty then type else " ".intercalate parts.modifiers ++ " " ++ type

/-- A parameter, as far as its own node says. -/
def parameter (node : Node) : Parameter :=
  let parts := node.children.foldl (ParameterParts.step source) {}
  { firstName := parts.names[0]?
    secondName := parts.names[1]?
    type := parts.fullType
    variadic := parts.variadic }

/-- Parameters gathered from a child list: the complete ones, the last of them first, and the
attributes for the next. -/
structure ParameterList where
  done : List Parameter := []
  pending : List Attribute := []
  deriving DecidableEq, Repr

/-- Takes up one child of a callable. Attributes stand before their parameter and default values
after it. -/
def ParameterList.step (list : ParameterList) (child : Node) : ParameterList :=
  if child.role = some .defaultValue then
    { list with
      done := list.done.modifyHead fun p =>
        { p with defaultValue := some (child.compactString source) } }
  else if child.kind = .attributeUse then
    { list with
      pending := list.pending ++ (Attribute.parse? (child.compactText source)).toList }
  else if child.kind = .parameter then
    { done := { parameter source child with attributes := list.pending } :: list.done, pending := [] }
  else list

def parameters (node : Node) : List Parameter :=
  (node.children.foldl (ParameterList.step source) {}).done.reverse

/-! ### Effects -/

/-- Whether a node ends the part of a header that can hold effects. -/
def endsEffects (node : Node) : Bool :=
  [NodeKind.arrow, .functionBody, .computedProperty, .typeConstraints].contains node.kind

/-- Whether a node says that a call throws. -/
def isThrows (node : Node) : Bool :=
  node.kind == .throwsKeyword || node.kind == .rethrowsKeyword

/-- The keyword among some words that says that a call throws. -/
def throwsAmong (words : List (List Char)) : Option String :=
  ["rethrows", "throws"].find? (words.contains ·.toList)

/-- The effects between the last closing parenthesis of the header and the arrow or body: those that
have a node of their own, and those that stand in the text alone. -/
def effects (node : Node) : Effects :=
  let header := (node.children.takeWhile (!endsEffects ·)).reverse
  let headerStop := ((node.children.find? endsEffects).map (·.start)).getD node.stop
  match header.find? (·.kind == .closeParen) with
  | none => ⟨false, none⟩
  | some close =>
    let nodes := header.takeWhile (·.kind != .closeParen)
    let words := (slice source close.stop headerStop).splitOnP fun c => isBlank c || c == '('
    { isAsync := nodes.any (·.kind == .asyncKeyword) || words.contains "async".toList
      throws := (nodes.find? isThrows).map (·.compactString source) <|> throwsAmong words }

/-! ### Declarations -/

/-- The type that a callable returns. -/
def returnType (node : Node) : Option String :=
  (node.childWithRole? .returnType).map (·.compactString source)

/-- The name of a function. -/
def functionName? (node : Node) : Option String :=
  match node.childWithRole? .name with
  | some name => some (name.compactString source)
  | none => (node.childOfKind? [.simpleIdentifier]).map (·.string source)

/-- A function or a requirement for one. -/
def function? (node : Node) : Option Declaration := do
  if node.kind ≠ .functionDeclaration ∧ node.kind ≠ .protocolFunctionDeclaration then none
  else
    let name ← functionName? source node
    if name.isEmpty then none
    else
      return {
        heading := heading source node "func"
        body := .function name (generics source node)
          ⟨parameters source node, returnType source node, effects source node⟩
          (requirements source node) }

/-- The mark of an initializer that can fail: `?` or `!` between its keyword and its parameters. -/
def failureMark (node : Node) : Option String :=
  match node.childOfKind? [.initKeyword], node.childOfKind? [.openParen] with
  | some keyword, some paren =>
    match trimStart (slice source keyword.stop paren.start) with
    | '?' :: _ => some "?"
    | '!' :: _ => some "!"
    | _ => none
  | _, _ => none

/-- An initializer. -/
def initializer? (node : Node) : Option Declaration :=
  if node.kind ≠ .initDeclaration then none
  else
    some {
      heading := heading source node "init"
      body := .initializer (failureMark source node) (generics source node)
        (parameters source node) (effects source node) (requirements source node) }

/-- The accessor that a node stands for. -/
def accessor? : NodeKind → Option String
  | .computedGetter | .getterSpecifier => some "get"
  | .computedSetter | .setterSpecifier => some "set"
  | .computedModify | .modifySpecifier => some "_modify"
  | .willSetClause => some "willSet"
  | .didSetClause => some "didSet"
  | _ => none

/-- The accessors in a block. A computed property that names none has a getter. -/
def accessors (node : Node) : List String :=
  match node.namedChildren.filterMap (accessor? ·.kind) with
  | [] => if node.kind = .computedProperty then ["get"] else []
  | found => found

/-- A subscript. -/
def subscript? (node : Node) : Option Declaration :=
  if node.kind ≠ .subscriptDeclaration then none
  else
    some {
      heading := heading source node "subscript"
      body := .subscript (generics source node) (parameters source node) (returnType source node)
        (requirements source node)
        (((node.childOfKind? [.computedProperty]).map accessors).getD []) }

end DocIndex.Extract
