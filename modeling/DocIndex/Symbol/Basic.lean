import DocIndex.Digest.Md5
import DocIndex.Markup.Documentation
import DocIndex.Symbol.Frame

/-! # Symbols

A symbol is a documented declaration together with its context and its place. Its name, identifier
and visibility follow from these. -/

namespace DocIndex

structure Symbol where
  declaration : Declaration
  /-- The frames around the declaration, the outermost first. -/
  context : List Frame
  documentation : Documentation
  location : Location
  deriving DecidableEq, Repr, Inhabited

namespace Symbol

def name (s : Symbol) : String := s.declaration.name

def kind (s : Symbol) : Declaration.Kind := s.declaration.kind

/-- The names of the enclosing types and of the symbol, with dots between them. -/
def qualifiedName (s : Symbol) : String :=
  ".".intercalate (s.context.filterMap (·.scopeName?) ++ [s.name])

/-- What tells a symbol from all others: file, qualified name, line and column. -/
def identity (s : Symbol) : String :=
  s.location.file ++ ":" ++ s.qualifiedName ++ ":" ++ toString s.location.line ++ ":" ++
    toString s.location.column

/-- The identifier of a symbol, the digest of its identity. -/
def id (s : Symbol) : String :=
  Md5.hex s.identity

/-- The conditions under which the symbol is compiled. -/
def conditions (s : Symbol) : List Condition :=
  s.context.filterMap (·.condition?)

/-- Whether an access level shows a declaration to other modules. -/
def isExposed (level : String) : Bool :=
  level == "public" || level == "open"

/-- Whether a frame makes the members inside it public. Members of a protocol always are. -/
def publishes : Frame → Bool
  | .container c => c.kind == .protocolType || c.accessLevel.any isExposed
  | .extension e => (Modifier.accessLevel? e.heading.modifiers).any isExposed
  | .condition _ => false

/-- Whether a symbol is visible to other modules: by its own access level if it sets one, and
otherwise by the innermost type or extension around it. -/
def isPublic (s : Symbol) : Bool :=
  match s.declaration.accessLevel? with
  | some level => isExposed level
  | none => (s.context.reverse.find? (·.condition?.isNone)).any publishes

def isDocumented (s : Symbol) : Bool :=
  !s.documentation.isEmpty

end Symbol

end DocIndex
