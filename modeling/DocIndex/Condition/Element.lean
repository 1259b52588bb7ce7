import DocIndex.Condition.Directive
import DocIndex.Tree.Node

/-! # Elements

The children of a node come as a flat list in which directives stand between ordinary nodes. Read as
tokens they are grouped into elements: plain items, and blocks with one clause per branch. Blocks
nest. A directive that divides or closes a block where none is open is dropped, and a block still
open at the end closes there. -/

namespace DocIndex

/-- An entry of a child list, as far as grouping goes. -/
inductive Token (α : Type) where
  | item (value : α)
  | ifTrue (directive : α) (condition : String)
  | elseIf (condition : String)
  | otherwise
  | endIf
  deriving DecidableEq, Repr

/-- A plain item or a conditional-compilation block. The clauses of a block are its branches with the
elements under each. -/
inductive Element (α : Type) where
  | item (value : α)
  | block (directive : α) (clauses : List (Branch × List (Element α)))
  deriving Repr, Inhabited

/-- A clause: a branch and the elements that it guards. -/
abbrev Clause (α : Type) := Branch × List (Element α)

/-- A block whose end has not been seen: the clauses that are complete, and the current one. -/
structure UnclosedBlock (α : Type) where
  directive : α
  done : List (Clause α)
  branch : Branch
  elements : List (Element α)
  deriving Repr

namespace UnclosedBlock

variable {α : Type}

def start (directive : α) (branch : Branch) : UnclosedBlock α :=
  ⟨directive, [], branch, []⟩

def push (block : UnclosedBlock α) (element : Element α) : UnclosedBlock α :=
  { block with elements := block.elements ++ [element] }

/-- Completes the current clause and starts the next. -/
def next (block : UnclosedBlock α) (branch : Branch) : UnclosedBlock α :=
  { block with done := block.done ++ [(block.branch, block.elements)], branch, elements := [] }

def toElement (block : UnclosedBlock α) : Element α :=
  .block block.directive (block.done ++ [(block.branch, block.elements)])

end UnclosedBlock

/-- A list of elements being built: the complete ones at the top level, and the open blocks, the
innermost first. -/
structure Grouping (α : Type) where
  top : List (Element α)
  blocks : List (UnclosedBlock α)
  deriving Repr

namespace Grouping

variable {α : Type}

def empty : Grouping α := ⟨[], []⟩

/-- Adds an element to the innermost open clause, or to the top level. -/
def push (grouping : Grouping α) (element : Element α) : Grouping α :=
  match grouping.blocks with
  | [] => { grouping with top := grouping.top ++ [element] }
  | block :: outer => { grouping with blocks := block.push element :: outer }

/-- Starts the next clause of the innermost open block, if there is one. -/
def next (grouping : Grouping α) (branch : Branch) : Grouping α :=
  match grouping.blocks with
  | [] => grouping
  | block :: outer => { grouping with blocks := block.next branch :: outer }

/-- Closes the innermost open block, if there is one. -/
def close (grouping : Grouping α) : Grouping α :=
  match grouping.blocks with
  | [] => grouping
  | block :: outer => push { grouping with blocks := outer } block.toElement

def step (grouping : Grouping α) : Token α → Grouping α
  | .item value => grouping.push (.item value)
  | .ifTrue directive condition =>
    { grouping with blocks := .start directive (.ifTrue condition) :: grouping.blocks }
  | .elseIf condition => grouping.next (.elseIf condition)
  | .otherwise => grouping.next .otherwise
  | .endIf => grouping.close

/-- Closes `n` blocks. -/
def closeMany : Nat → Grouping α → Grouping α
  | 0, grouping => grouping
  | n + 1, grouping => closeMany n grouping.close

/-- Closes all open blocks, the innermost first. -/
def finish (grouping : Grouping α) : List (Element α) :=
  (closeMany grouping.blocks.length grouping).top

end Grouping

/-- The elements that a list of tokens makes. -/
def group {α : Type} (tokens : List (Token α)) : List (Element α) :=
  (tokens.foldl Grouping.step .empty).finish

namespace Node

/-- The token of a child that stands for `value`. A directive that does not concern blocks has
none. -/
def token? {α : Type} (source : List Char) (node : Node) (value : α) : Option (Token α) :=
  if node.kind = .directive then
    match Directive.parse? (node.text source) with
    | some (.ifTrue condition) => some (.ifTrue value condition)
    | some (.elseIf condition) => some (.elseIf condition)
    | some .otherwise => some .otherwise
    | some .endIf => some .endIf
    | some .other | none => none
  else some (.item value)

/-- The children of a node with the directives among them grouped into blocks. -/
def elements (source : List Char) (node : Node) : List (Element Node) :=
  group (node.children.filterMap fun child => child.token? source child)

end Node

end DocIndex
