/-! # Kinds and roles of syntax nodes

The kinds of node of the Swift grammar that the index looks at, and the roles a child can have in its
parent. Every other kind or role keeps its name only. -/

namespace DocIndex

/-- What a syntax node is. -/
inductive NodeKind where
  | directive
  | comment
  | blockComment
  | typeDeclaration
  | protocolDeclaration
  | functionDeclaration
  | protocolFunctionDeclaration
  | initDeclaration
  | subscriptDeclaration
  | propertyDeclaration
  | protocolPropertyDeclaration
  | enumEntry
  | typealiasDeclaration
  | associatedTypeDeclaration
  | precedenceGroupDeclaration
  | importDeclaration
  | deinitDeclaration
  | operatorDeclaration
  | modifiers
  | attributeUse
  | parameter
  | parameterModifiers
  | parameterModifier
  | simpleIdentifier
  | typeIdentifier
  | userType
  | identifier
  | typeParameters
  | typeParameter
  | inheritanceSpecifier
  | inheritanceClause
  | typeConstraints
  | functionBody
  | computedProperty
  | observerBlock
  | propertyRequirements
  | typeClause
  | pattern
  | valueBindingPattern
  | computedGetter
  | getterSpecifier
  | computedSetter
  | setterSpecifier
  | computedModify
  | modifySpecifier
  | willSetClause
  | didSetClause
  | enumTypeParameters
  | precedenceGroupAttributes
  | precedenceGroupAttribute
  | actorKeyword
  | asyncKeyword
  | classKeyword
  | enumKeyword
  | extensionKeyword
  | funcKeyword
  | indirectKeyword
  | initKeyword
  | letKeyword
  | protocolKeyword
  | rethrowsKeyword
  | structKeyword
  | throwsKeyword
  | typealiasKeyword
  | varKeyword
  | openParen
  | closeParen
  | colon
  | comma
  | equalSign
  | arrow
  | ellipsis
  | other (name : String)
  deriving DecidableEq, Repr, Inhabited

namespace NodeKind

/-- The name of a kind in the grammar. -/
def name : NodeKind → String
  | directive => "directive"
  | comment => "comment"
  | blockComment => "multiline_comment"
  | typeDeclaration => "class_declaration"
  | protocolDeclaration => "protocol_declaration"
  | functionDeclaration => "function_declaration"
  | protocolFunctionDeclaration => "protocol_function_declaration"
  | initDeclaration => "init_declaration"
  | subscriptDeclaration => "subscript_declaration"
  | propertyDeclaration => "property_declaration"
  | protocolPropertyDeclaration => "protocol_property_declaration"
  | enumEntry => "enum_entry"
  | typealiasDeclaration => "typealias_declaration"
  | associatedTypeDeclaration => "associatedtype_declaration"
  | precedenceGroupDeclaration => "precedence_group_declaration"
  | importDeclaration => "import_declaration"
  | deinitDeclaration => "deinit_declaration"
  | operatorDeclaration => "operator_declaration"
  | modifiers => "modifiers"
  | attributeUse => "attribute"
  | parameter => "parameter"
  | parameterModifiers => "parameter_modifiers"
  | parameterModifier => "parameter_modifier"
  | simpleIdentifier => "simple_identifier"
  | typeIdentifier => "type_identifier"
  | userType => "user_type"
  | identifier => "identifier"
  | typeParameters => "type_parameters"
  | typeParameter => "type_parameter"
  | inheritanceSpecifier => "inheritance_specifier"
  | inheritanceClause => "type_inheritance_clause"
  | typeConstraints => "type_constraints"
  | functionBody => "function_body"
  | computedProperty => "computed_property"
  | observerBlock => "willset_didset_block"
  | propertyRequirements => "protocol_property_requirements"
  | typeClause => "type_annotation"
  | pattern => "pattern"
  | valueBindingPattern => "value_binding_pattern"
  | computedGetter => "computed_getter"
  | getterSpecifier => "getter_specifier"
  | computedSetter => "computed_setter"
  | setterSpecifier => "setter_specifier"
  | computedModify => "computed_modify"
  | modifySpecifier => "modify_specifier"
  | willSetClause => "willset_clause"
  | didSetClause => "didset_clause"
  | enumTypeParameters => "enum_type_parameters"
  | precedenceGroupAttributes => "precedence_group_attributes"
  | precedenceGroupAttribute => "precedence_group_attribute"
  | actorKeyword => "actor"
  | asyncKeyword => "async"
  | classKeyword => "class"
  | enumKeyword => "enum"
  | extensionKeyword => "extension"
  | funcKeyword => "func"
  | indirectKeyword => "indirect"
  | initKeyword => "init"
  | letKeyword => "let"
  | protocolKeyword => "protocol"
  | rethrowsKeyword => "rethrows"
  | structKeyword => "struct"
  | throwsKeyword => "throws"
  | typealiasKeyword => "typealias"
  | varKeyword => "var"
  | openParen => "("
  | closeParen => ")"
  | colon => ":"
  | comma => ","
  | equalSign => "="
  | arrow => "->"
  | ellipsis => "..."
  | other name => name

/-- The kinds with a meaning of their own. -/
def known : List NodeKind :=
  [directive, comment, blockComment, typeDeclaration, protocolDeclaration, functionDeclaration,
    protocolFunctionDeclaration, initDeclaration, subscriptDeclaration, propertyDeclaration,
    protocolPropertyDeclaration, enumEntry, typealiasDeclaration, associatedTypeDeclaration,
    precedenceGroupDeclaration, importDeclaration, deinitDeclaration, operatorDeclaration, modifiers,
    attributeUse, parameter, parameterModifiers, parameterModifier, simpleIdentifier, typeIdentifier,
    userType, identifier, typeParameters, typeParameter, inheritanceSpecifier, inheritanceClause,
    typeConstraints, functionBody, computedProperty, observerBlock, propertyRequirements,
    typeClause, pattern, valueBindingPattern, computedGetter, getterSpecifier, computedSetter,
    setterSpecifier, computedModify, modifySpecifier, willSetClause, didSetClause,
    enumTypeParameters, precedenceGroupAttributes, precedenceGroupAttribute, actorKeyword,
    asyncKeyword, classKeyword, enumKeyword, extensionKeyword, funcKeyword, indirectKeyword,
    initKeyword, letKeyword, protocolKeyword, rethrowsKeyword, structKeyword, throwsKeyword,
    typealiasKeyword, varKeyword, openParen, closeParen, colon, comma, equalSign, arrow, ellipsis]

/-- The kind with a given name. -/
def ofName (text : String) : NodeKind :=
  (known.find? (·.name == text)).getD (other text)

/-- Whether a node of this kind is a comment. -/
def isComment : NodeKind → Bool
  | comment | blockComment => true
  | _ => false

end NodeKind

/-- What a child is to its parent. -/
inductive NodeRole where
  | declarationKind
  | name
  | returnType
  | type
  | value
  | mustInherit
  | defaultValue
  | dataContents
  | rawValue
  | other (name : String)
  deriving DecidableEq, Repr, Inhabited

/-- The role with a given name. -/
def NodeRole.ofName : String → NodeRole
  | "declaration_kind" => declarationKind
  | "name" => name
  | "return_type" => returnType
  | "type" => type
  | "value" => value
  | "must_inherit" => mustInherit
  | "default_value" => defaultValue
  | "data_contents" => dataContents
  | "raw_value" => rawValue
  | text => other text

end DocIndex
