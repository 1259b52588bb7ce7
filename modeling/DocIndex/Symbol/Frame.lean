import DocIndex.Condition.Branch
import DocIndex.Declaration.Basic
import DocIndex.Location

/-! # Context frames

What encloses a symbol: documented types, extensions and branches of conditional compilation. -/

namespace DocIndex

/-- A documented type around its members. -/
structure Container where
  kind : Declaration.Kind
  name : String
  generics : List GenericParameter
  accessLevel : Option String
  deriving DecidableEq, Repr, Inhabited

def Container.ofDeclaration (d : Declaration) : Container :=
  ⟨d.kind, d.name, d.generics, d.accessLevel?⟩

/-- A conditional-compilation block: all its branches, and where it starts. -/
structure ConditionBlock where
  branches : List Branch
  location : Location
  deriving DecidableEq, Repr, Inhabited

/-- One branch of a block. -/
structure Condition where
  block : ConditionBlock
  branch : Branch
  deriving DecidableEq, Repr, Inhabited

/-- One step of the context of a symbol. -/
inductive Frame where
  | container (container : Container)
  | extension (extension : Extension)
  | condition (condition : Condition)
  deriving DecidableEq, Repr, Inhabited

/-- What a frame is, without its contents. -/
inductive FrameKind where
  | container (kind : Declaration.Kind)
  | extension
  | condition
  deriving DecidableEq, Repr, Inhabited

def FrameKind.render : FrameKind → String
  | container kind => "symbol(" ++ kind.name ++ ")"
  | extension => "extension"
  | condition => "condition"

namespace Frame

def kind : Frame → FrameKind
  | container c => .container c.kind
  | extension _ => .extension
  | condition _ => .condition

/-- The name that a frame adds to qualified names. -/
def scopeName? : Frame → Option String
  | container c => some c.name
  | extension e => some e.extendedType
  | condition _ => none

/-- The condition that a frame sets. -/
def condition? : Frame → Option Condition
  | condition c => some c
  | _ => none

end Frame

end DocIndex
