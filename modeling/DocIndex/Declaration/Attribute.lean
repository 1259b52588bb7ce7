import DocIndex.Text.Cut
import DocIndex.Text.Nesting

/-! # Attributes and modifiers

What may stand before the keyword of a declaration: attributes such as `@available(iOS 13, *)` and
modifiers such as `static` or `private(set)`. Both are read from text, and both render to text that
reads as the same again. -/

namespace DocIndex

open Text

/-- An attribute with its arguments. -/
structure Attribute where
  name : String
  arguments : List String
  deriving DecidableEq, Repr, Inhabited

namespace Attribute

def render (a : Attribute) : String :=
  "@" ++ a.name ++ if a.arguments.isEmpty then "" else "(" ++ ", ".intercalate a.arguments ++ ")"

/-- Reads the text after the `@` and the blanks that follow it. The arguments stand between the first
opening and the last closing parenthesis. -/
def ofBody (body : List Char) : Attribute :=
  match cutAt '(' body with
  | some (name, rest) =>
    match cutAtLast ')' rest with
    | some (inner, _) => ⟨String.ofList (trim name), (splitTop ',' inner).map String.ofList⟩
    | none => ⟨String.ofList body, []⟩
  | none => ⟨String.ofList body, []⟩

/-- Reads an attribute. -/
def parse? (text : List Char) : Option Attribute :=
  match trim text with
  | '@' :: rest =>
    let body := trimStart rest
    if body.isEmpty then none else some (ofBody body)
  | _ => none

end Attribute

/-- A modifier, perhaps with a detail in parentheses. -/
structure Modifier where
  name : String
  detail : Option String
  deriving DecidableEq, Repr, Inhabited

namespace Modifier

/-- A modifier without detail. -/
def plain (name : String) : Modifier := ⟨name, none⟩

def render (m : Modifier) : String :=
  match m.detail with
  | some detail => m.name ++ "(" ++ detail ++ ")"
  | none => m.name

/-- Reads a modifier. The detail stands between the first opening and the last closing
parenthesis. -/
def parse (text : List Char) : Modifier :=
  let text := trim text
  match cutAt '(' text with
  | some (name, rest) =>
    match cutAtLast ')' rest with
    | some (inner, _) => ⟨String.ofList (trim name), some (String.ofList (trim inner))⟩
    | none => plain (String.ofList text)
  | none => plain (String.ofList text)

/-- The modifiers that set an access level. -/
def accessLevels : List String :=
  ["open", "public", "package", "internal", "fileprivate", "private"]

/-- Whether a modifier sets the access level of its declaration. With a detail it sets that of the
setter alone. -/
def isAccess (m : Modifier) : Bool :=
  m.detail.isNone && accessLevels.contains m.name

/-- The access level that a list of modifiers sets. -/
def accessLevel? (modifiers : List Modifier) : Option String :=
  (modifiers.find? isAccess).map (·.name)

end Modifier

end DocIndex
