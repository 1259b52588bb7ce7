import DocIndex.Declaration.Basic

/-! # Signatures

The one-line text of a declaration: heading, name and the parts that matter to a caller. -/

namespace DocIndex

/-- The attributes and modifiers, each with a space after it. -/
def Heading.renderMarks (h : Heading) : String :=
  String.join ((h.attributes.map (·.render) ++ h.modifiers.map (·.render)).map (· ++ " "))

/-- Everything up to and including the keyword. -/
def Heading.render (h : Heading) : String :=
  h.renderMarks ++ h.keyword

/-- The type parameters in angle brackets, and nothing for none. -/
def GenericParameter.renderAll (generics : List GenericParameter) : String :=
  if generics.isEmpty then "" else "<" ++ ", ".intercalate (generics.map (·.render)) ++ ">"

/-- The effects, each after a space. -/
def Effects.render (effects : Effects) : String :=
  (if effects.isAsync then " async" else "") ++
    match effects.throws with
    | some throws => " " ++ throws
    | none => ""

namespace Declaration

/-- The inherited types after a colon, and nothing for none. -/
def renderInheritance (types : List String) : String :=
  if types.isEmpty then "" else ": " ++ ", ".intercalate types

/-- The accessors in braces, and nothing for none. -/
def renderAccessors (accessors : List String) : String :=
  if accessors.isEmpty then "" else " \x7b " ++ " ".intercalate accessors ++ " \x7d"

/-- A part that may be missing, after the text that leads to it. -/
def renderPart (lead : String) : Option String → String
  | some part => lead ++ part
  | none => ""

/-- The text after the keyword. -/
def Body.render : Body → String
  | .nominal _ name generics inheritance requirements =>
    " " ++ name ++ GenericParameter.renderAll generics ++ renderInheritance inheritance ++
      Requirement.renderAll requirements
  | .enumerationCase name associated raw =>
    " " ++ name ++ (associated.map Parameter.renderAll).getD "" ++ renderPart " = " raw
  | .protocolType name inheritance requirements =>
    " " ++ name ++ renderInheritance inheritance ++ Requirement.renderAll requirements
  | .function name generics signature requirements =>
    " " ++ name ++ GenericParameter.renderAll generics ++ Parameter.renderAll signature.input ++
      signature.effects.render ++ renderPart " -> " signature.output ++
      Requirement.renderAll requirements
  | .initializer mark generics parameters effects requirements =>
    mark.getD "" ++ GenericParameter.renderAll generics ++ Parameter.renderAll parameters ++
      effects.render ++ Requirement.renderAll requirements
  | .subscript generics indices output requirements accessors =>
    GenericParameter.renderAll generics ++ Parameter.renderAll indices ++ renderPart " -> " output ++
      Requirement.renderAll requirements ++ renderAccessors accessors
  | .property name type value accessors =>
    " " ++ name ++ renderPart ": " type ++ renderPart " = " value ++ renderAccessors accessors
  | .typeAlias name generics type =>
    " " ++ name ++ GenericParameter.renderAll generics ++ renderPart " = " type
  | .associatedType name inheritance defaultType requirements =>
    " " ++ name ++ renderInheritance inheritance ++ renderPart " = " defaultType ++
      Requirement.renderAll requirements
  | .precedenceGroup name .. => " " ++ name

/-- The declaration in one line. -/
def signature (d : Declaration) : String :=
  d.heading.render ++ d.body.render

end Declaration

end DocIndex
