import DocIndex.Proofs.Condition.Enclosing

/-! # Grouping does not look at items

What stands for an item, or for the directive that opens a block, can be replaced before the tokens are
grouped or after it (`group_map`), and the clauses around an item stay the same (`enclosures_map`). -/

namespace DocIndex

variable {α β : Type} (f : α → β)

/-- Replaces the item or the directive of a token. -/
def Token.map : Token α → Token β
  | .item value => .item (f value)
  | .ifTrue directive condition => .ifTrue (f directive) condition
  | .elseIf condition => .elseIf condition
  | .otherwise => .otherwise
  | .endIf => .endIf

mutual

/-- Replaces the items and the directives of an element. -/
def Element.map : Element α → Element β
  | .item value => .item (f value)
  | .block directive clauses => .block (f directive) (mapClauses clauses)

def mapClauses : List (Branch × List (Element α)) → List (Branch × List (Element β))
  | [] => []
  | (branch, elements) :: rest => (branch, mapElements elements) :: mapClauses rest

def mapElements : List (Element α) → List (Element β)
  | [] => []
  | element :: rest => element.map :: mapElements rest

end

@[simp]
theorem mapElements_append : ∀ first second : List (Element α),
    mapElements f (first ++ second) = mapElements f first ++ mapElements f second
  | [], _ => by simp [mapElements]
  | element :: rest, second => by simp [mapElements, mapElements_append rest second]

@[simp]
theorem mapClauses_append : ∀ first second : List (Clause α),
    mapClauses f (first ++ second) = mapClauses f first ++ mapClauses f second
  | [], _ => by simp [mapClauses]
  | (branch, elements) :: rest, second => by simp [mapClauses, mapClauses_append rest second]

theorem map_fst_mapClauses (clauses : List (Clause α)) :
    (mapClauses f clauses).map (·.1) = clauses.map (·.1) := by
  induction clauses with
  | nil => rw [mapClauses]; rfl
  | cons clause rest ih =>
    obtain ⟨branch, elements⟩ := clause
    rw [mapClauses, List.map_cons, ih, List.map_cons]

/-! ### Grouping -/

def UnclosedBlock.map (block : UnclosedBlock α) : UnclosedBlock β :=
  ⟨f block.directive, mapClauses f block.done, block.branch, mapElements f block.elements⟩

namespace UnclosedBlock

theorem map_push (block : UnclosedBlock α) (element : Element α) :
    (block.push element).map f = (block.map f).push (element.map f) := by
  simp [map, push, mapElements]

theorem map_next (block : UnclosedBlock α) (branch : Branch) :
    (block.next branch).map f = (block.map f).next branch := by
  simp [map, next, mapElements, mapClauses]

theorem map_toElement (block : UnclosedBlock α) :
    block.toElement.map f = (block.map f).toElement := by
  simp [map, toElement, Element.map, mapClauses]

end UnclosedBlock

def Grouping.map (grouping : Grouping α) : Grouping β :=
  ⟨mapElements f grouping.top, grouping.blocks.map (·.map f)⟩

namespace Grouping

theorem map_push (grouping : Grouping α) (element : Element α) :
    (grouping.push element).map f = (grouping.map f).push (element.map f) := by
  rcases grouping with ⟨top, _ | ⟨block, outer⟩⟩
  · simp [push, map, mapElements]
  · simp [push, map, UnclosedBlock.map_push]

theorem map_next (grouping : Grouping α) (branch : Branch) :
    (grouping.next branch).map f = (grouping.map f).next branch := by
  rcases grouping with ⟨top, _ | ⟨block, outer⟩⟩
  · rfl
  · simp [next, map, UnclosedBlock.map_next]

theorem map_close (grouping : Grouping α) : grouping.close.map f = (grouping.map f).close := by
  rcases grouping with ⟨top, _ | ⟨block, outer⟩⟩
  · rfl
  · exact (map_push f _ _).trans (congrArg _ (UnclosedBlock.map_toElement f block))

theorem map_step (grouping : Grouping α) (token : Token α) :
    (grouping.step token).map f = (grouping.map f).step (token.map f) := by
  cases token with
  | item value => exact map_push f _ _
  | ifTrue directive condition => rfl
  | elseIf condition => exact map_next f _ _
  | otherwise => exact map_next f _ _
  | endIf => exact map_close f _

theorem map_foldl : ∀ (tokens : List (Token α)) (grouping : Grouping α),
    (tokens.foldl step grouping).map f = (tokens.map (Token.map f)).foldl step (grouping.map f)
  | [], _ => rfl
  | token :: rest, grouping => by
    rw [List.foldl_cons, map_foldl rest, map_step, List.map_cons, List.foldl_cons]

theorem map_closeMany : ∀ (n : Nat) (grouping : Grouping α),
    (closeMany n grouping).map f = closeMany n (grouping.map f)
  | 0, _ => rfl
  | n + 1, grouping => by rw [closeMany, map_closeMany n, map_close, closeMany]

theorem map_finish (grouping : Grouping α) : mapElements f grouping.finish = (grouping.map f).finish := by
  have hlength : (grouping.map f).blocks.length = grouping.blocks.length := List.length_map _
  rw [finish, finish, hlength, ← map_closeMany]
  rfl

end Grouping

theorem group_map (tokens : List (Token α)) :
    group (tokens.map (Token.map f)) = mapElements f (group tokens) := by
  rw [group, group, Grouping.map_finish, Grouping.map_foldl]
  rfl

/-! ### Clauses around an item -/

def Enclosure.map (enclosure : Enclosure α) : Enclosure β :=
  ⟨f enclosure.directive, enclosure.branches, enclosure.branch⟩

def OpenClause.map (clause : OpenClause α) : OpenClause β :=
  ⟨f clause.directive, clause.earlier, clause.branch⟩

namespace Token

theorem reopen_map (clauses : List (OpenClause α)) (token : Token α) :
    (token.map f).reopen (clauses.map (·.map f)) = (token.reopen clauses).map (·.map f) := by
  cases token with
  | elseIf condition | otherwise => cases clauses <;> rfl
  | endIf => exact List.map_tail.symm
  | _ => rfl

theorem branchesAhead_map : ∀ (inner : Nat) (tokens : List (Token α)),
    branchesAhead inner (tokens.map (Token.map f)) = branchesAhead inner tokens
  | _, [] => by simp [branchesAhead]
  | inner, .item value :: rest => branchesAhead_map inner rest
  | inner, .ifTrue directive condition :: rest => branchesAhead_map (inner + 1) rest
  | 0, .elseIf condition :: rest => congrArg (List.cons _) (branchesAhead_map 0 rest)
  | inner + 1, .elseIf condition :: rest => branchesAhead_map (inner + 1) rest
  | 0, .otherwise :: rest => congrArg (List.cons _) (branchesAhead_map 0 rest)
  | inner + 1, .otherwise :: rest => branchesAhead_map (inner + 1) rest
  | 0, .endIf :: rest => rfl
  | inner + 1, .endIf :: rest => branchesAhead_map inner rest

theorem enclosuresFrom_map (ahead : List (Token α)) : ∀ (inner : Nat) (clauses : List (OpenClause α)),
    enclosuresFrom (ahead.map (Token.map f)) inner (clauses.map (·.map f)) =
      (enclosuresFrom ahead inner clauses).map (·.map f)
  | _, [] => rfl
  | inner, clause :: outer => by
    rw [List.map_cons, enclosuresFrom, enclosuresFrom_map ahead (inner + 1) outer, branchesAhead_map,
      enclosuresFrom, List.map_append]
    rfl

theorem enclosures_map (clauses : List (OpenClause α)) (ahead : List (Token α)) :
    enclosures (clauses.map (·.map f)) (ahead.map (Token.map f)) =
      (enclosures clauses ahead).map (·.map f) :=
  enclosuresFrom_map f ahead 0 clauses

end Token

end DocIndex
