import DocIndex.Text.Cut
import DocIndex.Text.Nesting

/-! # Generic parameters and requirements -/

namespace DocIndex

open Text

/-- A type parameter, perhaps with the type that bounds it. -/
structure GenericParameter where
  name : String
  bound : Option String
  deriving DecidableEq, Repr, Inhabited

namespace GenericParameter

def render (p : GenericParameter) : String :=
  match p.bound with
  | some bound => p.name ++ ": " ++ bound
  | none => p.name

/-- Reads a type parameter. -/
def parse? (text : List Char) : Option GenericParameter :=
  let text := trim text
  if text.isEmpty then none
  else
    match cutTop ':' text with
    | some (name, bound) => some ⟨String.ofList (trim name), some (String.ofList (trim bound))⟩
    | none => some ⟨String.ofList text, none⟩

end GenericParameter

/-- How the sides of a requirement relate. -/
inductive Relation where
  | sameType
  | conformance
  deriving DecidableEq, Repr, Inhabited

/-- A clause after `where`. -/
structure Requirement where
  left : String
  relation : Relation
  right : String
  deriving DecidableEq, Repr, Inhabited

namespace Requirement

def render (r : Requirement) : String :=
  match r.relation with
  | .sameType => r.left ++ " == " ++ r.right
  | .conformance => r.left ++ ": " ++ r.right

/-- A requirement between two trimmed texts. -/
def between (left : List Char) (relation : Relation) (right : List Char) : Requirement :=
  ⟨String.ofList (trim left), relation, String.ofList (trim right)⟩

/-- Reads a clause: two sides around the first `==`, or else around the first colon at the top
level. -/
def ofClause? (clause : List Char) : Option Requirement :=
  match cut ['=', '='] clause with
  | some (left, right) => some (between left .sameType right)
  | none => (cutTop ':' clause).map fun (left, right) => between left .conformance right

/-- Reads the clauses of a constraint list, with or without the `where` before it. Clauses that are
no requirements are left out. -/
def parseAll (text : List Char) : List Requirement :=
  (splitTop ',' (dropStart "where".toList (trim text))).filterMap ofClause?

/-- The clauses after their `where`, and nothing for none. -/
def renderAll (requirements : List Requirement) : String :=
  if requirements.isEmpty then ""
  else " where " ++ ", ".intercalate (requirements.map render)

end Requirement

end DocIndex
