import DocIndex.Declaration.Basic
import DocIndex.Json.Record

/-! # Declarations in JSON

A declaration is an object whose first member, `kind`, says which members follow. -/

namespace DocIndex

open Json

namespace Attribute

def toJson (a : Attribute) : Json :=
  object [("name", string a.name), ("arguments", list string a.arguments)]

def ofJson? (value : Json) : Option Attribute :=
  match fields? ["name", "arguments"] value with
  | some [name, arguments] => do
    return ⟨← required string? name, ← required (list? string?) arguments⟩
  | _ => none

end Attribute

namespace Modifier

def toJson (m : Modifier) : Json :=
  object [("name", string m.name), ("detail", option string m.detail)]

def ofJson? (value : Json) : Option Modifier :=
  match fields? ["name", "detail"] value with
  | some [name, detail] => do
    return ⟨← required string? name, ← optional string? detail⟩
  | _ => none

end Modifier

namespace GenericParameter

def toJson (p : GenericParameter) : Json :=
  object [("name", string p.name), ("type", option string p.bound)]

def ofJson? (value : Json) : Option GenericParameter :=
  match fields? ["name", "type"] value with
  | some [name, bound] => do
    return ⟨← required string? name, ← optional string? bound⟩
  | _ => none

end GenericParameter

namespace Relation

def name : Relation → String
  | sameType => "same_type"
  | conformance => "conformance"

def ofName? (text : String) : Option Relation :=
  [sameType, conformance].find? (·.name == text)

end Relation

namespace Requirement

def toJson (r : Requirement) : Json :=
  object [("left_type", string r.left), ("relation", string r.relation.name),
    ("right_type", string r.right)]

def ofJson? (value : Json) : Option Requirement :=
  match fields? ["left_type", "relation", "right_type"] value with
  | some [left, relation, right] => do
    return ⟨← required string? left, ← required (choice? .tagged Relation.ofName?) relation,
      ← required string? right⟩
  | _ => none

end Requirement

namespace Parameter

def toJson (p : Parameter) : Json :=
  object [("attributes", list Attribute.toJson p.attributes),
    ("first_name", option string p.firstName), ("second_name", option string p.secondName),
    ("type", option string p.type), ("variadic", bool p.variadic),
    ("default_value", option string p.defaultValue)]

def ofJson? (value : Json) : Option Parameter :=
  match fields? ["attributes", "first_name", "second_name", "type", "variadic", "default_value"]
      value with
  | some [attributes, firstName, secondName, type, variadic, defaultValue] => do
    return ⟨← required (list? Attribute.ofJson?) attributes, ← optional string? firstName,
      ← optional string? secondName, ← optional string? type, ← required bool? variadic,
      ← optional string? defaultValue⟩
  | _ => none

end Parameter

namespace FunctionSignature

def toJson (s : FunctionSignature) : Json :=
  object [("input", list Parameter.toJson s.input), ("output", option string s.output),
    ("is_async", bool s.effects.isAsync), ("throws", option string s.effects.throws)]

def ofJson? (value : Json) : Option FunctionSignature :=
  match fields? ["input", "output", "is_async", "throws"] value with
  | some [input, output, isAsync, throws] => do
    return ⟨← required (list? Parameter.ofJson?) input, ← optional string? output,
      ⟨← required bool? isAsync, ← optional string? throws⟩⟩
  | _ => none

end FunctionSignature

namespace PrecedenceRelation

def toJson (r : PrecedenceRelation) : Json :=
  object [("relation", string r.relation), ("groups", list string r.groups)]

def ofJson? (value : Json) : Option PrecedenceRelation :=
  match fields? ["relation", "groups"] value with
  | some [relation, groups] => do
    return ⟨← required string? relation, ← required (list? string?) groups⟩
  | _ => none

end PrecedenceRelation

namespace Heading

/-- The names of the members that a heading has. -/
def names : List String := ["attributes", "modifiers", "keyword"]

def members (h : Heading) : List (String × Json) :=
  [("attributes", list Attribute.toJson h.attributes),
    ("modifiers", list Modifier.toJson h.modifiers), ("keyword", string h.keyword)]

def ofFields? (attributes modifiers keyword : Option Json) : Option Heading := do
  return ⟨← required (list? Attribute.ofJson?) attributes,
    ← required (list? Modifier.ofJson?) modifiers, ← required string? keyword⟩

end Heading

/-! ### Fields that several records have -/

namespace Declaration

def genericsJson (generics : List GenericParameter) : String × Json :=
  ("generic_parameters", list GenericParameter.toJson generics)

def requirementsJson (requirements : List Requirement) : String × Json :=
  ("generic_requirements", list Requirement.toJson requirements)

def inheritanceJson (inheritance : List String) : String × Json :=
  ("inheritance", list string inheritance)

def accessorsJson (accessors : List String) : String × Json :=
  ("accessors", list string accessors)

def generics? : Option Json → Option (List GenericParameter) :=
  required (list? GenericParameter.ofJson?)

def requirements? : Option Json → Option (List Requirement) :=
  required (list? Requirement.ofJson?)

def strings? : Option Json → Option (List String) :=
  required (list? string?)

def parametersOf? : Option Json → Option (List Parameter) :=
  required (list? Parameter.ofJson?)

/-! ### Bodies -/

namespace Body

/-- The members after those of the heading. -/
def members : Body → List (String × Json)
  | .nominal _ name generics inheritance requirements =>
    [("name", string name), genericsJson generics, inheritanceJson inheritance,
      requirementsJson requirements]
  | .enumerationCase name associated raw =>
    [("name", string name), ("associated_value", option (list Parameter.toJson) associated),
      ("raw_value", option string raw)]
  | .protocolType name inheritance requirements =>
    [("name", string name), inheritanceJson inheritance, requirementsJson requirements]
  | .function name generics signature requirements =>
    [("name", string name), genericsJson generics, ("signature", signature.toJson),
      requirementsJson requirements]
  | .initializer mark generics parameters effects requirements =>
    [("optional", option string mark), genericsJson generics,
      ("parameters", list Parameter.toJson parameters), ("is_async", bool effects.isAsync),
      ("throws", option string effects.throws), requirementsJson requirements]
  | .subscript generics indices output requirements accessors =>
    [genericsJson generics, ("indices", list Parameter.toJson indices),
      ("return_type", option string output), requirementsJson requirements,
      accessorsJson accessors]
  | .property name type value accessors =>
    [("name", string name), ("type_annotation", option string type),
      ("initialized_value", option string value), accessorsJson accessors]
  | .typeAlias name generics type =>
    [("name", string name), genericsJson generics, ("initialized_type", option string type)]
  | .associatedType name inheritance defaultType requirements =>
    [("name", string name), inheritanceJson inheritance,
      ("default_type", option string defaultType), requirementsJson requirements]
  | .precedenceGroup name assignment associativity relations =>
    [("name", string name), ("assignment", option bool assignment),
      ("associativity", option string associativity),
      ("relations", list PrecedenceRelation.toJson relations)]

/-- The names of the members after those of the heading. -/
def names : Kind → List String
  | .classType | .structureType | .enumerationType =>
    ["name", "generic_parameters", "inheritance", "generic_requirements"]
  | .enumerationCase => ["name", "associated_value", "raw_value"]
  | .protocolType => ["name", "inheritance", "generic_requirements"]
  | .function => ["name", "generic_parameters", "signature", "generic_requirements"]
  | .initializer =>
    ["optional", "generic_parameters", "parameters", "is_async", "throws", "generic_requirements"]
  | .subscript =>
    ["generic_parameters", "indices", "return_type", "generic_requirements", "accessors"]
  | .property => ["name", "type_annotation", "initialized_value", "accessors"]
  | .typeAlias => ["name", "generic_parameters", "initialized_type"]
  | .associatedType => ["name", "inheritance", "default_type", "generic_requirements"]
  | .precedenceGroup => ["name", "assignment", "associativity", "relations"]

def nominalOfFields? (sort : NominalSort) : List (Option Json) → Option Body
  | [name, generics, inheritance, requirements] => do
    return .nominal sort (← required string? name) (← generics? generics)
      (← strings? inheritance) (← requirements? requirements)
  | _ => none

/-- Reads a body of a given kind from its fields. -/
def ofFields? : Kind → List (Option Json) → Option Body
  | .classType, fields => nominalOfFields? .classType fields
  | .structureType, fields => nominalOfFields? .structureType fields
  | .enumerationType, fields => nominalOfFields? .enumerationType fields
  | .enumerationCase, [name, associated, raw] => do
    return .enumerationCase (← required string? name)
      (← optional (list? Parameter.ofJson?) associated) (← optional string? raw)
  | .protocolType, [name, inheritance, requirements] => do
    return .protocolType (← required string? name) (← strings? inheritance)
      (← requirements? requirements)
  | .function, [name, generics, signature, requirements] => do
    return .function (← required string? name) (← generics? generics)
      (← required FunctionSignature.ofJson? signature) (← requirements? requirements)
  | .initializer, [mark, generics, parameters, isAsync, throws, requirements] => do
    return .initializer (← optional string? mark) (← generics? generics)
      (← parametersOf? parameters) ⟨← required bool? isAsync, ← optional string? throws⟩
      (← requirements? requirements)
  | .subscript, [generics, indices, output, requirements, accessors] => do
    return .subscript (← generics? generics) (← parametersOf? indices) (← optional string? output)
      (← requirements? requirements) (← strings? accessors)
  | .property, [name, type, value, accessors] => do
    return .property (← required string? name) (← optional string? type) (← optional string? value)
      (← strings? accessors)
  | .typeAlias, [name, generics, type] => do
    return .typeAlias (← required string? name) (← generics? generics) (← optional string? type)
  | .associatedType, [name, inheritance, defaultType, requirements] => do
    return .associatedType (← required string? name) (← strings? inheritance)
      (← optional string? defaultType) (← requirements? requirements)
  | .precedenceGroup, [name, assignment, associativity, relations] => do
    return .precedenceGroup (← required string? name) (← optional bool? assignment)
      (← optional string? associativity) (← required (list? PrecedenceRelation.ofJson?) relations)
  | _, _ => none

end Body

def toJson (d : Declaration) : Json :=
  object (("kind", string d.kind.name) :: d.heading.members ++ d.body.members)

/-- Reads the fields of a declaration of a given kind. -/
def ofFields? (kind : Kind) : List (Option Json) → Option Declaration
  | attributes :: modifiers :: keyword :: rest => do
    return ⟨← Heading.ofFields? attributes modifiers keyword, ← Body.ofFields? kind rest⟩
  | _ => none

def ofJson? (value : Json) : Option Declaration := do
  let (tag, record) ← tagged? "kind" value
  let kind ← Kind.ofName? tag
  ofFields? kind (← fields? (Heading.names ++ Body.names kind) record)

end Declaration

namespace Extension

def members (e : Extension) : List (String × Json) :=
  e.heading.members ++
    [("extended_type", string e.extendedType), Declaration.inheritanceJson e.inheritance,
      Declaration.requirementsJson e.requirements]

def toJson (e : Extension) : Json :=
  object e.members

def ofJson? (value : Json) : Option Extension :=
  match fields? (Heading.names ++ ["extended_type", "inheritance", "generic_requirements"])
      value with
  | some [attributes, modifiers, keyword, extendedType, inheritance, requirements] => do
    return ⟨← Heading.ofFields? attributes modifiers keyword, ← required string? extendedType,
      ← Declaration.strings? inheritance, ← Declaration.requirements? requirements⟩
  | _ => none

end Extension

namespace Import

def toJson (i : Import) : Json :=
  object (i.heading.members ++
    [("import_kind", option string i.importKind), ("path", string i.path)])

def ofJson? (value : Json) : Option Import :=
  match fields? (Heading.names ++ ["import_kind", "path"]) value with
  | some [attributes, modifiers, keyword, importKind, path] => do
    return ⟨← Heading.ofFields? attributes modifiers keyword, ← optional string? importKind,
      ← required string? path⟩
  | _ => none

end Import

end DocIndex
