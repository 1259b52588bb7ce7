/-! # Branches of conditional compilation -/

namespace DocIndex

/-- The head of one arm of a conditional-compilation block. -/
inductive Branch where
  | ifTrue (condition : String)
  | elseIf (condition : String)
  | otherwise
  deriving DecidableEq, Repr, Inhabited

namespace Branch

/-- The guard; the last arm may have none. -/
def condition? : Branch → Option String
  | ifTrue condition | elseIf condition => some condition
  | otherwise => none

def keyword : Branch → String
  | ifTrue _ => "#if"
  | elseIf _ => "#elseif"
  | otherwise => "#else"

/-- The branch as it stands in a source text. -/
def render (branch : Branch) : String :=
  match branch.condition? with
  | some condition => branch.keyword ++ " " ++ condition
  | none => branch.keyword

end Branch

end DocIndex
