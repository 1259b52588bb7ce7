import DocIndex.Declaration.Json
import DocIndex.Symbol.Basic

/-! # Symbols in JSON

A symbol is written with its identifier, kind and name, which are computed again when it is read. -/

namespace DocIndex

open Json

namespace Branch

/-- The word that stands for a branch. -/
def tag : Branch → String
  | ifTrue _ => "if"
  | elseIf _ => "elseif"
  | otherwise => "else"

def toJson (branch : Branch) : Json :=
  object (("keyword", string branch.tag) ::
    (branch.condition?.map fun condition => ("condition", string condition)).toList)

/-- Reads a branch by its word. The last arm of a block takes no condition. -/
def ofFields? (tag : String) (condition : Option Json) : Option Branch :=
  match tag with
  | "if" => (required string? condition).map ifTrue
  | "elseif" => (required string? condition).map elseIf
  | "else" =>
    match condition with
    | none | some null => some otherwise
    | some _ => none
  | _ => none

/-- The words for branches, in the order of their numbers. -/
def tags : List String := ["if", "elseif", "else"]

/-- Reads a branch from an object, or from an array of its word and its condition. -/
def ofJson? (setting : Setting) : Json → Option Branch
  | object members => do
    ofFields? (← required (choice? setting some) (member? "keyword" members))
      (member? "condition" members)
  | array [word, condition] => do ofFields? (← leadingName? setting tags word) (some condition)
  | _ => none

end Branch

namespace Location

def toJson (l : Location) : Json :=
  object [("file", string l.file), ("line", nat l.line), ("column", nat l.column),
    ("offset", nat l.offset)]

def ofJson? (value : Json) : Option Location :=
  match fields? ["file", "line", "column", "offset"] value with
  | some [file, line, column, offset] => do
    return ⟨← required string? file, ← required size? line, ← required size? column,
      ← required size? offset⟩
  | _ => none

end Location

namespace Container

def members (c : Container) : List (String × Json) :=
  [("declaration", string c.kind.name), ("name", string c.name),
    Declaration.genericsJson c.generics, ("access_level", option string c.accessLevel)]

def ofJson? (value : Json) : Option Container :=
  match fields? ["declaration", "name", "generic_parameters", "access_level"] value with
  | some [kind, name, generics, accessLevel] => do
    return ⟨← required (choice? .tagged Declaration.Kind.ofName?) kind, ← required string? name,
      ← Declaration.generics? generics, ← optional string? accessLevel⟩
  | _ => none

end Container

namespace ConditionBlock

def toJson (b : ConditionBlock) : Json :=
  object [("branches", list Branch.toJson b.branches), ("location", b.location.toJson)]

def ofJson? (value : Json) : Option ConditionBlock :=
  match fields? ["branches", "location"] value with
  | some [branches, location] => do
    return ⟨← required (list? (Branch.ofJson? .tagged)) branches, ← required Location.ofJson? location⟩
  | _ => none

end ConditionBlock

namespace Condition

def members (c : Condition) : List (String × Json) :=
  [("block", c.block.toJson), ("branch", c.branch.toJson)]

def ofJson? (value : Json) : Option Condition :=
  match fields? ["block", "branch"] value with
  | some [block, branch] => do
    return ⟨← required ConditionBlock.ofJson? block, ← required (Branch.ofJson? .tagged) branch⟩
  | _ => none

end Condition

namespace Frame

def toJson : Frame → Json
  | container c => object (("kind", string "symbol") :: c.members)
  | extension e => object (("kind", string "extension") :: e.members)
  | condition c => object (("kind", string "condition") :: c.members)

def ofJson? (value : Json) : Option Frame := do
  match ← tagged? "kind" value with
  | ("symbol", record) => (Container.ofJson? record).map container
  | ("extension", record) => (Extension.ofJson? record).map extension
  | ("condition", record) => (Condition.ofJson? record).map condition
  | _ => none

end Frame

namespace ParameterNote

def toJson (n : ParameterNote) : Json :=
  object [("name", string n.name), ("description", string n.description)]

def ofJson? (value : Json) : Option ParameterNote :=
  match fields? ["name", "description"] value with
  | some [name, description] => do
    return ⟨← required string? name, ← required string? description⟩
  | _ => none

end ParameterNote

namespace Callout

def toJson (c : Callout) : Json :=
  object [("delimiter", string c.delimiter), ("content", string c.content)]

def ofJson? (value : Json) : Option Callout :=
  match fields? ["delimiter", "content"] value with
  | some [delimiter, content] => do
    return ⟨← required string? delimiter, ← required string? content⟩
  | _ => none

end Callout

namespace Documentation

def members (d : Documentation) : List (String × Json) :=
  [("summary", option string d.summary), ("discussion", list string d.discussion),
    ("parameters", list ParameterNote.toJson d.parameters), ("returns", option string d.returns),
    ("throws", option string d.throws), ("callouts", list Callout.toJson d.callouts)]

def toJson (d : Documentation) : Json :=
  object d.members

def ofJson? (value : Json) : Option Documentation :=
  match fields? ["summary", "discussion", "parameters", "returns", "throws", "callouts"] value with
  | some [summary, discussion, parameters, returns, throws, callouts] => do
    return ⟨← optional string? summary, ← required (list? string?) discussion,
      ← required (list? ParameterNote.ofJson?) parameters, ← optional string? returns,
      ← optional string? throws, ← required (list? Callout.ofJson?) callouts⟩
  | _ => none

end Documentation

namespace Symbol

def toJson (s : Symbol) : Json :=
  object [("id", string s.id), ("kind", string s.kind.name), ("name", string s.name),
    ("declaration", s.declaration.toJson), ("context", list Frame.toJson s.context),
    ("documentation", s.documentation.toJson), ("location", s.location.toJson)]

/-- Reads what a symbol is made of. -/
def ofFields? (declaration context documentation location : Option Json) : Option Symbol := do
  return ⟨← required Declaration.ofJson? declaration, ← required (list? Frame.ofJson?) context,
    ← required Documentation.ofJson? documentation, ← required Location.ofJson? location⟩

/-- A field that may be absent, but must be a string if it is there. -/
def nameless? : Option Json → Option Unit
  | none | some (string _) => some ()
  | some _ => none

/-- Reads a symbol. Its kind must be the name of one, and its identifier and name, if given, strings;
none of the three is kept. -/
def ofJson? (value : Json) : Option Symbol :=
  match fields? ["id", "kind", "name", "declaration", "context", "documentation", "location"]
      value with
  | some [id, kind, name, declaration, context, documentation, location] => do
    nameless? id
    let _ ← required (choice? .plain Declaration.Kind.ofName?) kind
    nameless? name
    ofFields? declaration context documentation location
  | _ => none

end Symbol

end DocIndex
