import DocIndex.Condition.Branch
import DocIndex.Text.Blank
import DocIndex.Text.Cut
import DocIndex.Text.Character

/-! # Directives

A directive is a line that starts with `#` and a keyword. The keyword ends where the next character
belongs to no word; what follows it, up to a `//`, is the condition. -/

namespace DocIndex

/-- A directive line. -/
inductive Directive where
  | ifTrue (condition : String)
  | elseIf (condition : String)
  | otherwise
  | endIf
  /-- A directive that neither opens, divides nor closes a block. -/
  | other
  deriving DecidableEq, Repr, Inhabited

namespace Directive

/-- The text after `#` and `keyword`, if the text starts with them and the keyword ends there. -/
def after? (keyword : String) (text : List Char) : Option (List Char) :=
  match ('#' :: keyword.toList).isPrefixOf? text with
  | some [] => some []
  | some (c :: rest) => if Text.isWord c then none else some (c :: rest)
  | none => none

/-- The condition in what follows a keyword. -/
def conditionOf (rest : List Char) : String :=
  match Text.cut ['/', '/'] rest with
  | some (before, _) => String.ofList (Text.trim before)
  | none => String.ofList (Text.trim rest)

/-- Reads the text of a directive. A directive stands on one line. -/
def parse? (text : List Char) : Option Directive :=
  let line := Text.trim text
  if line.contains '\n' then none
  else
    match after? "if" line with
    | some rest => some (ifTrue (conditionOf rest))
    | none =>
      match after? "elseif" line with
      | some rest => some (elseIf (conditionOf rest))
      | none =>
        if (after? "else" line).isSome then some otherwise
        else if (after? "endif" line).isSome then some endIf
        else if (after? "sourceLocation" line).isSome then some other
        else none

end Directive

/-- The directive that a branch renders to. -/
def Branch.directive : Branch → Directive
  | ifTrue condition => .ifTrue condition
  | elseIf condition => .elseIf condition
  | otherwise => .otherwise

end DocIndex
