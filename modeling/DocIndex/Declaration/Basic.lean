import DocIndex.Declaration.Attribute
import DocIndex.Declaration.Generic
import DocIndex.Declaration.Parameter

/-! # Declarations

Every declaration starts with attributes, modifiers and a keyword. What follows depends on its
kind. -/

namespace DocIndex

/-- What stands before the name of a declaration. -/
structure Heading where
  attributes : List Attribute
  modifiers : List Modifier
  keyword : String
  deriving DecidableEq, Repr, Inhabited

/-- The three types with the same form. -/
inductive NominalSort where
  | classType
  | structureType
  | enumerationType
  deriving DecidableEq, Repr, Inhabited

/-- Whether a call suspends, and how it throws: `throws`, `rethrows`, or `throws` with a type. -/
structure Effects where
  isAsync : Bool
  throws : Option String
  deriving DecidableEq, Repr, Inhabited

structure FunctionSignature where
  input : List Parameter
  output : Option String
  effects : Effects
  deriving DecidableEq, Repr, Inhabited

/-- How a precedence group relates to others. -/
structure PrecedenceRelation where
  relation : String
  groups : List String
  deriving DecidableEq, Repr, Inhabited

namespace Declaration

/-- The kinds of declaration. -/
inductive Kind where
  | classType
  | structureType
  | enumerationType
  | enumerationCase
  | protocolType
  | function
  | initializer
  | subscript
  | property
  | typeAlias
  | associatedType
  | precedenceGroup
  deriving DecidableEq, Repr, Inhabited

namespace Kind

def name : Kind → String
  | classType => "class"
  | structureType => "structure"
  | enumerationType => "enumeration"
  | enumerationCase => "enumeration_case"
  | protocolType => "protocol"
  | function => "function"
  | initializer => "initializer"
  | subscript => "subscript"
  | property => "variable"
  | typeAlias => "typealias"
  | associatedType => "associated_type"
  | precedenceGroup => "precedence_group"

def all : List Kind :=
  [classType, structureType, enumerationType, enumerationCase, protocolType, function, initializer,
    subscript, property, typeAlias, associatedType, precedenceGroup]

/-- The kind with a given name. -/
def ofName? (text : String) : Option Kind :=
  all.find? (·.name == text)

/-- Whether declarations of this kind have members. -/
def isContainer : Kind → Bool
  | classType | structureType | enumerationType | protocolType => true
  | _ => false

end Kind

/-- What follows the heading. -/
inductive Body where
  | nominal (sort : NominalSort) (name : String) (generics : List GenericParameter)
      (inheritance : List String) (requirements : List Requirement)
  | enumerationCase (name : String) (associated : Option (List Parameter)) (raw : Option String)
  | protocolType (name : String) (inheritance : List String) (requirements : List Requirement)
  | function (name : String) (generics : List GenericParameter) (signature : FunctionSignature)
      (requirements : List Requirement)
  | initializer (mark : Option String) (generics : List GenericParameter)
      (parameters : List Parameter) (effects : Effects) (requirements : List Requirement)
  | subscript (generics : List GenericParameter) (indices : List Parameter)
      (output : Option String) (requirements : List Requirement) (accessors : List String)
  | property (name : String) (type : Option String) (value : Option String)
      (accessors : List String)
  | typeAlias (name : String) (generics : List GenericParameter) (type : Option String)
  | associatedType (name : String) (inheritance : List String) (defaultType : Option String)
      (requirements : List Requirement)
  | precedenceGroup (name : String) (assignment : Option Bool) (associativity : Option String)
      (relations : List PrecedenceRelation)
  deriving DecidableEq, Repr, Inhabited

end Declaration

/-- A declaration that can become a symbol. -/
structure Declaration where
  heading : Heading
  body : Declaration.Body
  deriving DecidableEq, Repr, Inhabited

namespace Declaration

def attributes (d : Declaration) : List Attribute := d.heading.attributes

def modifiers (d : Declaration) : List Modifier := d.heading.modifiers

/-- The access level that the declaration itself sets. -/
def accessLevel? (d : Declaration) : Option String :=
  Modifier.accessLevel? d.modifiers

def kind (d : Declaration) : Kind :=
  match d.body with
  | .nominal .classType .. => .classType
  | .nominal .structureType .. => .structureType
  | .nominal .enumerationType .. => .enumerationType
  | .enumerationCase .. => .enumerationCase
  | .protocolType .. => .protocolType
  | .function .. => .function
  | .initializer .. => .initializer
  | .subscript .. => .subscript
  | .property .. => .property
  | .typeAlias .. => .typeAlias
  | .associatedType .. => .associatedType
  | .precedenceGroup .. => .precedenceGroup

/-- The name; initializers and subscripts go by their keyword. -/
def name (d : Declaration) : String :=
  match d.body with
  | .initializer .. | .subscript .. => d.heading.keyword
  | .nominal _ name .. | .enumerationCase name .. | .protocolType name .. | .function name ..
  | .property name .. | .typeAlias name .. | .associatedType name .. | .precedenceGroup name .. =>
    name

def generics (d : Declaration) : List GenericParameter :=
  match d.body with
  | .nominal _ _ generics .. | .function _ generics .. | .initializer _ generics ..
  | .subscript generics .. | .typeAlias _ generics .. => generics
  | .enumerationCase .. | .protocolType .. | .property .. | .associatedType ..
  | .precedenceGroup .. => []

/-- The parameters of a callable, or the values that a case carries. -/
def parameters? (d : Declaration) : Option (List Parameter) :=
  match d.body with
  | .function _ _ signature _ => some signature.input
  | .initializer _ _ parameters .. => some parameters
  | .subscript _ indices .. => some indices
  | .enumerationCase _ associated _ => associated
  | _ => none

/-- For a function, whether its name is an operator: it starts neither with a letter nor with an
underscore or a backtick. -/
def isOperator? (d : Declaration) : Option Bool :=
  match d.body with
  | .function name .. =>
    some (match name.toList with
      | [] => false
      | c :: _ => !(Text.isAlphabetic c || c == '_' || c == '\x60'))
  | _ => none

end Declaration

/-- An extension. It is never a symbol, only the context of some. -/
structure Extension where
  heading : Heading
  extendedType : String
  inheritance : List String
  requirements : List Requirement
  deriving DecidableEq, Repr, Inhabited

/-- An import: a module path, perhaps with the kind of what is imported. -/
structure Import where
  heading : Heading
  importKind : Option String
  path : String
  deriving DecidableEq, Repr, Inhabited

namespace Import

/-- The parts of the module path. -/
def components (i : Import) : List String :=
  (i.path.toList.splitOnP (· == '.')).map String.ofList

def render (i : Import) : String :=
  String.join (i.heading.attributes.map fun a => a.render ++ " ") ++ i.heading.keyword ++
    (match i.importKind with
      | some kind => " " ++ kind
      | none => "") ++
    " " ++ i.path

end Import

end DocIndex
