import DocIndex.Extract.Callable

/-! # Properties

A property declaration can bind several names. Each binding has what stands between its name and the
next one; a bare binding takes the type of the one after it, so `var a, b: Int` gives both a type. -/

namespace DocIndex.Extract

open Text

variable (source : List Char)

/-- One name that a property declaration binds. -/
structure Binding where
  name : String
  type : Option String := none
  value : Option String := none
  accessors : List String := []
  deriving DecidableEq, Repr

/-- Whether a child of a property declaration is a name. -/
def isBindingName (node : Node) : Bool :=
  node.role == some .name || (node.kind == .pattern && node.role == none)

/-- The name in a pattern: its identifier if it has just one, and its text otherwise. -/
def bindingName (node : Node) : String :=
  if node.kind = .simpleIdentifier then node.string source
  else
    match node.namedChildren.filter (·.kind == .simpleIdentifier) with
    | [identifier] => identifier.string source
    | _ => node.compactString source

/-- The type in a type clause. -/
def clauseType? (node : Node) : Option String :=
  let text :=
    match node.childWithRole? .type with
    | some type => type.compactText source
    | none => trim ((node.compactText source).dropWhile (· == ':'))
  if text.isEmpty then none else some (String.ofList text)

/-- A binding taking up the children after its name, and whether an equal sign stands right before. -/
structure OpenBinding where
  binding : Binding
  afterEquals : Bool := false
  deriving DecidableEq, Repr

/-- Takes up one child after the name of a binding. -/
def OpenBinding.step (state : OpenBinding) (child : Node) : OpenBinding :=
  let binding := state.binding
  if child.kind = .typeClause then
    { state with binding := { binding with type := clauseType? source child } }
  else if child.kind = .computedProperty ∨ child.kind = .observerBlock ∨
      child.kind = .propertyRequirements then
    { state with binding := { binding with accessors := accessors child } }
  else if child.kind = .equalSign then { state with afterEquals := true }
  else if child.kind = .comma then { state with afterEquals := false }
  else if child.role = some .value ∨ (state.afterEquals ∧ child.named) then
    { binding := { binding with value := some (child.compactString source) }, afterEquals := false }
  else state

/-- Takes up one child of a property declaration; the bindings come with the last one first. -/
def bindingStep (bindings : List OpenBinding) (child : Node) : List OpenBinding :=
  if isBindingName child then
    { binding := { name := bindingName source child } } :: bindings
  else bindings.modifyHead (OpenBinding.step source · child)

/-- The bindings of a property declaration with what each says itself. -/
def ownBindings (node : Node) : List Binding :=
  ((node.children.foldl (bindingStep source) []).reverse.map (·.binding)).filter
    (!·.name.isEmpty)

/-- Gives every binding that says nothing but its name the type of the binding after it, going
backwards. Also gives the type that a binding before these would take. -/
def shareTypesFrom : List Binding → List Binding × Option String
  | [] => ([], none)
  | binding :: rest =>
    let (shared, next) := shareTypesFrom rest
    if binding.type.isSome then (binding :: shared, binding.type)
    else if binding.value.isNone && binding.accessors.isEmpty then
      ({ binding with type := next } :: shared, next)
    else (binding :: shared, none)

def shareTypes (bindings : List Binding) : List Binding :=
  (shareTypesFrom bindings).1

/-- The keyword of a property declaration. -/
def bindingKeyword (node : Node) : String :=
  let written :=
    (node.childOfKind? [.valueBindingPattern]).bind fun pattern =>
      (words (pattern.compactText source)).find? fun word =>
        word == "let".toList || word == "var".toList
  match written with
  | some word => String.ofList word
  | none => if (node.childOfKind? [.letKeyword]).isSome then "let" else "var"

/-- The properties that a declaration binds, or requires. -/
def properties (node : Node) : List Declaration :=
  if node.kind ≠ .propertyDeclaration ∧ node.kind ≠ .protocolPropertyDeclaration then []
  else
    (shareTypes (ownBindings source node)).map fun binding =>
      { heading := heading source node (bindingKeyword source node)
        body := .property binding.name binding.type binding.value binding.accessors }

end DocIndex.Extract
