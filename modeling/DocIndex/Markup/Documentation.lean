/-! # Documentation

What a documentation comment says, and why a comment may say nothing. -/

namespace DocIndex

/-- The description of one parameter. -/
structure ParameterNote where
  name : String
  description : String
  deriving DecidableEq, Repr, Inhabited

/-- A remark under a word of its own, such as a note or a warning. -/
structure Callout where
  delimiter : String
  content : String
  deriving DecidableEq, Repr, Inhabited

/-- The contents of a documentation comment. -/
structure Documentation where
  /-- The first paragraph. -/
  summary : Option String := none
  /-- The other paragraphs and the blocks of code, in order. -/
  discussion : List String := []
  parameters : List ParameterNote := []
  returns : Option String := none
  throws : Option String := none
  callouts : List Callout := []
  deriving DecidableEq, Repr, Inhabited

namespace Documentation

def isEmpty (documentation : Documentation) : Bool :=
  documentation.summary.isNone && documentation.discussion.isEmpty &&
    documentation.parameters.isEmpty && documentation.returns.isNone &&
    documentation.throws.isNone && documentation.callouts.isEmpty

/-- The first note on a parameter of the given name. -/
def parameter? (documentation : Documentation) (name : String) : Option ParameterNote :=
  documentation.parameters.find? (·.name == name)

end Documentation

namespace Markup

/-- Why a comment is not read as documentation. -/
inductive Error where
  | notDocumentation
  | empty
  deriving DecidableEq, Repr, Inhabited

def Error.message : Error → String
  | notDocumentation => "comment does not use documentation syntax"
  | empty => "documentation comment has no content"

/-- A way to read the text of a comment. -/
abbrev Dialect := String → Except Error Documentation

end Markup

end DocIndex
