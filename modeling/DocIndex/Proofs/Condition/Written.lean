import DocIndex.Condition.Element

/-! # Elements written out

An element stands for a stretch of tokens: an item for itself, a block for the directives of its
clauses with what is between them and for the directive that ends it. Grouping a list of tokens and
writing the elements out gives the tokens back, without the directives that stand in no block and with
all blocks closed (`tokens_group`). So grouping loses, repeats and moves no item (`items_group`), and
its blocks are in order (`group_wellFormed`). -/

namespace DocIndex

variable {α : Type}

/-! ### Tokens of an element -/

/-- Whether a branch is the first of its block. -/
def Branch.opens : Branch → Bool
  | ifTrue _ => true
  | _ => false

/-- The token at the start of a clause. -/
def Branch.token (directive : α) : Branch → Token α
  | ifTrue condition => .ifTrue directive condition
  | elseIf condition => .elseIf condition
  | otherwise => .otherwise

mutual

/-- The tokens that an element stands for. -/
def Element.tokens : Element α → List (Token α)
  | .item value => [.item value]
  | .block directive clauses => tokensOfClauses directive clauses ++ [.endIf]

/-- The tokens of some clauses of a block, without the one that ends the block. -/
def tokensOfClauses (directive : α) : List (Branch × List (Element α)) → List (Token α)
  | [] => []
  | (branch, elements) :: rest =>
    branch.token directive :: (tokensOfElements elements ++ tokensOfClauses directive rest)

def tokensOfElements : List (Element α) → List (Token α)
  | [] => []
  | element :: rest => element.tokens ++ tokensOfElements rest

end

@[simp]
theorem tokensOfElements_append : ∀ first second : List (Element α),
    tokensOfElements (first ++ second) = tokensOfElements first ++ tokensOfElements second
  | [], second => by simp [tokensOfElements]
  | element :: rest, second => by
    simp [tokensOfElements, tokensOfElements_append rest second]

@[simp]
theorem tokensOfClauses_append (directive : α) : ∀ first second : List (Clause α),
    tokensOfClauses directive (first ++ second) =
      tokensOfClauses directive first ++ tokensOfClauses directive second
  | [], second => by simp [tokensOfClauses]
  | (branch, elements) :: rest, second => by
    simp [tokensOfClauses, tokensOfClauses_append directive rest second]

/-! ### Depth and strays -/

namespace Token

/-- The number of open blocks after a token, given the number before it. -/
def depth (before : Nat) : Token α → Nat
  | .ifTrue _ _ => before + 1
  | .endIf => before - 1
  | _ => before

/-- Whether a token divides or ends a block where none is open. -/
def isStray (before : Nat) : Token α → Bool
  | .elseIf _ | .otherwise | .endIf => before == 0
  | _ => false

/-- The number of blocks that a list of tokens leaves open. -/
def depthAfter (before : Nat) (tokens : List (Token α)) : Nat :=
  tokens.foldl depth before

def withoutStrays (before : Nat) : List (Token α) → List (Token α)
  | [] => []
  | token :: rest =>
    if token.isStray before then withoutStrays (token.depth before) rest
    else token :: withoutStrays (token.depth before) rest

/-- The tokens that are no strays, and an end for each block that they leave open. -/
def settled (before : Nat) (tokens : List (Token α)) : List (Token α) :=
  withoutStrays before tokens ++ List.replicate (depthAfter before tokens) .endIf

def item? : Token α → Option α
  | .item value => some value
  | _ => none

theorem item?_of_isStray {before : Nat} {token : Token α} (h : token.isStray before = true) :
    token.item? = none := by
  cases token with
  | item value => simp [isStray] at h
  | _ => rfl

theorem filterMap_item?_withoutStrays : ∀ (before : Nat) (tokens : List (Token α)),
    (withoutStrays before tokens).filterMap item? = tokens.filterMap item?
  | _, [] => rfl
  | before, token :: rest => by
    have ih := filterMap_item?_withoutStrays (token.depth before) rest
    by_cases h : token.isStray before = true
    · simp [withoutStrays, h, ih, item?_of_isStray h]
    · simp [withoutStrays, h, List.filterMap_cons, ih]

theorem filterMap_item?_settled (before : Nat) (tokens : List (Token α)) :
    (settled before tokens).filterMap item? = tokens.filterMap item? := by
  rw [settled, List.filterMap_append, filterMap_item?_withoutStrays]
  simp [item?, List.filterMap_replicate]

end Token

/-! ### What grouping keeps -/

/-- The tokens that an open block stands for so far. -/
def UnclosedBlock.tokens (block : UnclosedBlock α) : List (Token α) :=
  tokensOfClauses block.directive (block.done ++ [(block.branch, block.elements)])

/-- The tokens that the open blocks stand for so far. The innermost block comes first in the list and
last in the tokens. -/
def tokensOfBlocks : List (UnclosedBlock α) → List (Token α)
  | [] => []
  | block :: outer => tokensOfBlocks outer ++ block.tokens

namespace UnclosedBlock

@[simp]
theorem tokens_start (directive : α) (branch : Branch) :
    (start directive branch).tokens = [branch.token directive] := by
  simp [tokens, start, tokensOfClauses, tokensOfElements]

@[simp]
theorem tokens_push (block : UnclosedBlock α) (element : Element α) :
    (block.push element).tokens = block.tokens ++ element.tokens := by
  simp [tokens, push, tokensOfClauses, tokensOfElements]

@[simp]
theorem tokens_next (block : UnclosedBlock α) (branch : Branch) :
    (block.next branch).tokens = block.tokens ++ [branch.token block.directive] := by
  simp [tokens, next, tokensOfClauses, tokensOfElements]

@[simp]
theorem tokens_toElement (block : UnclosedBlock α) :
    block.toElement.tokens = block.tokens ++ [.endIf] := by
  simp [tokens, toElement, Element.tokens]

end UnclosedBlock

namespace Grouping

/-- The tokens that a list of elements under construction stands for so far. -/
def tokens (grouping : Grouping α) : List (Token α) :=
  tokensOfElements grouping.top ++ tokensOfBlocks grouping.blocks

def depth (grouping : Grouping α) : Nat :=
  grouping.blocks.length

@[simp]
theorem tokens_push (grouping : Grouping α) (element : Element α) :
    (grouping.push element).tokens = grouping.tokens ++ element.tokens := by
  rcases grouping with ⟨top, _ | ⟨block, outer⟩⟩ <;>
    simp [push, tokens, tokensOfBlocks, tokensOfElements]

@[simp]
theorem depth_push (grouping : Grouping α) (element : Element α) :
    (grouping.push element).depth = grouping.depth := by
  rcases grouping with ⟨top, _ | ⟨block, outer⟩⟩ <;> rfl

theorem tokens_close {grouping : Grouping α} (h : grouping.depth ≠ 0) :
    grouping.close.tokens = grouping.tokens ++ [.endIf] := by
  rcases grouping with ⟨top, _ | ⟨block, outer⟩⟩
  · exact absurd rfl h
  · simp only [close, tokens_push, UnclosedBlock.tokens_toElement]
    simp [tokens, tokensOfBlocks]

theorem depth_close (grouping : Grouping α) : grouping.close.depth = grouping.depth - 1 := by
  rcases grouping with ⟨top, _ | ⟨block, outer⟩⟩
  · rfl
  · exact depth_push _ _

theorem tokens_next {grouping : Grouping α} (h : grouping.depth ≠ 0) {branch : Branch} {token : Token α}
    (htoken : ∀ directive, branch.token directive = token) :
    (grouping.next branch).tokens = grouping.tokens ++ [token] := by
  rcases grouping with ⟨top, _ | ⟨block, outer⟩⟩
  · exact absurd rfl h
  · simp [next, tokens, tokensOfBlocks, htoken]

theorem depth_next (grouping : Grouping α) (branch : Branch) :
    (grouping.next branch).depth = grouping.depth := by
  rcases grouping with ⟨top, _ | ⟨block, outer⟩⟩ <;> rfl

theorem step_of_isStray {grouping : Grouping α} {token : Token α}
    (h : token.isStray grouping.depth = true) : grouping.step token = grouping := by
  rcases grouping with ⟨top, _ | ⟨block, outer⟩⟩
  · cases token <;> first | rfl | simp [Token.isStray] at h
  · cases token <;> simp [Token.isStray, depth] at h

theorem depth_step (grouping : Grouping α) (token : Token α) :
    (grouping.step token).depth = token.depth grouping.depth := by
  cases token with
  | item value => exact depth_push _ _
  | ifTrue directive condition => rfl
  | elseIf condition => exact depth_next _ _
  | otherwise => exact depth_next _ _
  | endIf => exact depth_close _

/-- A token that is no stray is written down as it is. -/
theorem tokens_step {grouping : Grouping α} {token : Token α}
    (h : token.isStray grouping.depth = false) :
    (grouping.step token).tokens = grouping.tokens ++ [token] := by
  cases token with
  | item value => simp [step, Element.tokens]
  | ifTrue directive condition => simp [step, tokens, tokensOfBlocks, Branch.token]
  | elseIf condition => exact tokens_next (by simpa [Token.isStray] using h) fun _ => rfl
  | otherwise => exact tokens_next (by simpa [Token.isStray] using h) fun _ => rfl
  | endIf => exact tokens_close (by simpa [Token.isStray] using h)

theorem depth_foldl : ∀ (tokens : List (Token α)) (grouping : Grouping α),
    (tokens.foldl step grouping).depth = Token.depthAfter grouping.depth tokens
  | [], _ => rfl
  | token :: rest, grouping => by
    rw [List.foldl_cons, depth_foldl rest, depth_step]
    rfl

theorem tokens_foldl : ∀ (tokens : List (Token α)) (grouping : Grouping α),
    (tokens.foldl step grouping).tokens =
      grouping.tokens ++ Token.withoutStrays grouping.depth tokens
  | [], grouping => by simp [Token.withoutStrays]
  | token :: rest, grouping => by
    rw [List.foldl_cons, tokens_foldl rest, depth_step, Token.withoutStrays]
    -- A stray changes nothing; any other token is written at the end.
    cases h : token.isStray grouping.depth
    · simp [tokens_step h]
    · simp [step_of_isStray h]

theorem tokens_closeMany : ∀ (n : Nat) (grouping : Grouping α), grouping.depth = n →
    tokensOfElements (closeMany n grouping).top = grouping.tokens ++ List.replicate n .endIf
  | 0, grouping, h => by
    have hblocks : grouping.blocks = [] := List.length_eq_zero_iff.mp h
    simp [closeMany, tokens, hblocks, tokensOfBlocks]
  | n + 1, grouping, h => by
    have hclose : grouping.close.depth = n := by rw [depth_close, h, Nat.add_sub_cancel]
    rw [closeMany, tokens_closeMany n _ hclose, tokens_close (by omega), List.replicate_succ]
    simp

theorem tokens_finish (grouping : Grouping α) :
    tokensOfElements grouping.finish =
      grouping.tokens ++ List.replicate grouping.depth .endIf :=
  tokens_closeMany _ grouping rfl

end Grouping

/-- Grouping and writing out gives the tokens back, without the strays and with all blocks closed. -/
theorem tokens_group (tokens : List (Token α)) :
    tokensOfElements (group tokens) = Token.settled 0 tokens := by
  have hempty : (Grouping.empty : Grouping α).tokens = [] := rfl
  rw [group, Grouping.tokens_finish, Grouping.tokens_foldl, Grouping.depth_foldl, hempty]
  rfl

example : Token.settled 0 [.endIf, .ifTrue 1 "A", .item 2, .otherwise, .ifTrue 3 "B"] =
    [.ifTrue 1 "A", .item 2, .otherwise, .ifTrue 3 "B", .endIf, .endIf] := by
  decide

/-! ### Items -/

mutual

def Element.items : Element α → List α
  | .item value => [value]
  | .block _ clauses => itemsOfClauses clauses

def itemsOfClauses : List (Branch × List (Element α)) → List α
  | [] => []
  | (_, elements) :: rest => itemsOfElements elements ++ itemsOfClauses rest

def itemsOfElements : List (Element α) → List α
  | [] => []
  | element :: rest => element.items ++ itemsOfElements rest

end

theorem Branch.item?_token (directive : α) (branch : Branch) : (branch.token directive).item? = none := by
  cases branch <;> rfl

mutual

theorem Element.filterMap_item?_tokens : ∀ element : Element α,
    element.tokens.filterMap Token.item? = element.items
  | .item value => rfl
  | .block directive clauses => by
    rw [Element.tokens, List.filterMap_append, filterMap_item?_tokensOfClauses directive clauses]
    exact List.append_nil _

theorem filterMap_item?_tokensOfClauses (directive : α) : ∀ clauses : List (Clause α),
    (tokensOfClauses directive clauses).filterMap Token.item? = itemsOfClauses clauses
  | [] => rfl
  | (branch, elements) :: rest => by
    rw [tokensOfClauses, List.filterMap_cons_none (branch.item?_token directive),
      List.filterMap_append, filterMap_item?_tokensOfElements elements,
      filterMap_item?_tokensOfClauses directive rest, itemsOfClauses]

theorem filterMap_item?_tokensOfElements : ∀ elements : List (Element α),
    (tokensOfElements elements).filterMap Token.item? = itemsOfElements elements
  | [] => rfl
  | element :: rest => by
    rw [tokensOfElements, List.filterMap_append, element.filterMap_item?_tokens,
      filterMap_item?_tokensOfElements rest, itemsOfElements]

end

/-- Grouping keeps every item once and in its order. -/
theorem items_group (tokens : List (Token α)) :
    itemsOfElements (group tokens) = tokens.filterMap Token.item? := by
  rw [← filterMap_item?_tokensOfElements, tokens_group, Token.filterMap_item?_settled]

/-! ### Branches in order -/

/-- The branches of a block in order: it has at least one, the first one opens it and no other does. -/
def Branch.InOrder : List Branch → Prop
  | [] => False
  | first :: rest => first.opens = true ∧ ∀ branch ∈ rest, branch.opens = false

theorem Branch.InOrder.concat {branches : List Branch} (h : InOrder branches) {branch : Branch}
    (hbranch : branch.opens = false) : InOrder (branches ++ [branch]) := by
  cases branches with
  | nil => exact h.elim
  | cons first rest =>
    refine ⟨h.1, fun other hother => ?_⟩
    rcases List.mem_append.mp hother with hother | hother
    · exact h.2 other hother
    · exact List.mem_singleton.mp hother ▸ hbranch

/-- An element all of whose blocks have their branches in order. -/
inductive Element.WellFormed : Element α → Prop
  | item (value : α) : WellFormed (.item value)
  | block {directive : α} {clauses : List (Clause α)} (branches : Branch.InOrder (clauses.map (·.1)))
      (elements : ∀ clause ∈ clauses, ∀ element ∈ clause.2, WellFormed element) :
      WellFormed (.block directive clauses)

namespace UnclosedBlock

variable {block : UnclosedBlock α}

theorem wellFormed_start (directive : α) (condition : String) :
    (start directive (.ifTrue condition)).toElement.WellFormed :=
  .block ⟨rfl, fun _ h => nomatch h⟩ fun clause hclause element helement => by
    obtain rfl := List.mem_singleton.mp hclause
    exact nomatch helement

theorem wellFormed_push (h : block.toElement.WellFormed) {element : Element α}
    (helement : element.WellFormed) : (block.push element).toElement.WellFormed := by
  cases h with
  | block branches elements =>
    refine .block (by simpa [push] using branches) fun clause hclause other hother => ?_
    rcases List.mem_append.mp hclause with hclause | hclause
    · exact elements clause (List.mem_append_left _ hclause) other hother
    · obtain rfl := List.mem_singleton.mp hclause
      rcases List.mem_append.mp hother with hother | hother
      · exact elements _ (List.mem_append_right _ List.mem_cons_self) other hother
      · exact List.mem_singleton.mp hother ▸ helement

theorem wellFormed_next (h : block.toElement.WellFormed) {branch : Branch}
    (hbranch : branch.opens = false) : (block.next branch).toElement.WellFormed := by
  cases h with
  | block branches elements =>
    refine .block ?_ fun clause hclause other hother => ?_
    · have := branches.concat hbranch
      simpa [next] using this
    · rcases List.mem_append.mp hclause with hclause | hclause
      · exact elements clause hclause other hother
      · obtain rfl := List.mem_singleton.mp hclause
        exact nomatch hother

end UnclosedBlock

namespace Grouping

/-- All elements so far, those that the open blocks would make included, have their branches in
order. -/
structure WellFormed (grouping : Grouping α) : Prop where
  top : ∀ element ∈ grouping.top, element.WellFormed
  blocks : ∀ block ∈ grouping.blocks, block.toElement.WellFormed

namespace WellFormed

variable {grouping : Grouping α}

theorem push (h : grouping.WellFormed) {element : Element α} (helement : element.WellFormed) :
    (grouping.push element).WellFormed := by
  rcases grouping with ⟨top, _ | ⟨block, outer⟩⟩
  · refine ⟨fun other hother => ?_, h.blocks⟩
    rcases List.mem_append.mp hother with hother | hother
    · exact h.top other hother
    · exact List.mem_singleton.mp hother ▸ helement
  · refine ⟨h.top, fun other hother => ?_⟩
    rcases List.mem_cons.mp hother with rfl | hother
    · exact UnclosedBlock.wellFormed_push (h.blocks block List.mem_cons_self) helement
    · exact h.blocks other (List.mem_cons_of_mem _ hother)

theorem next (h : grouping.WellFormed) {branch : Branch} (hbranch : branch.opens = false) :
    (grouping.next branch).WellFormed := by
  rcases grouping with ⟨top, _ | ⟨block, outer⟩⟩
  · exact h
  · refine ⟨h.top, fun other hother => ?_⟩
    rcases List.mem_cons.mp hother with rfl | hother
    · exact UnclosedBlock.wellFormed_next (h.blocks block List.mem_cons_self) hbranch
    · exact h.blocks other (List.mem_cons_of_mem _ hother)

theorem close (h : grouping.WellFormed) : grouping.close.WellFormed := by
  rcases grouping with ⟨top, _ | ⟨block, outer⟩⟩
  · exact h
  · have houter : WellFormed ⟨top, outer⟩ :=
      ⟨h.top, fun other hother => h.blocks other (List.mem_cons_of_mem _ hother)⟩
    exact houter.push (h.blocks block List.mem_cons_self)

theorem step (h : grouping.WellFormed) (token : Token α) : (grouping.step token).WellFormed := by
  cases token with
  | item value => exact h.push (.item value)
  | ifTrue directive condition =>
    refine ⟨h.top, fun block hblock => ?_⟩
    rcases List.mem_cons.mp hblock with rfl | hblock
    · exact UnclosedBlock.wellFormed_start directive condition
    · exact h.blocks block hblock
  | elseIf condition => exact h.next rfl
  | otherwise => exact h.next rfl
  | endIf => exact h.close

theorem foldl : ∀ (tokens : List (Token α)) {grouping : Grouping α}, grouping.WellFormed →
    (tokens.foldl Grouping.step grouping).WellFormed
  | [], _, h => h
  | token :: rest, _, h => foldl rest (h.step token)

theorem closeMany : ∀ (n : Nat) {grouping : Grouping α}, grouping.WellFormed →
    (Grouping.closeMany n grouping).WellFormed
  | 0, _, h => h
  | n + 1, _, h => closeMany n h.close

end WellFormed

end Grouping

theorem group_wellFormed (tokens : List (Token α)) : ∀ element ∈ group tokens, element.WellFormed :=
  have hempty : (Grouping.empty : Grouping α).WellFormed :=
    ⟨fun _ h => absurd h List.not_mem_nil, fun _ h => absurd h List.not_mem_nil⟩
  (Grouping.WellFormed.closeMany _ (Grouping.WellFormed.foldl tokens hempty)).top

/-! ### Children of a node -/

/-- The tokens of some siblings. -/
def tokensOfNodes (source : List Char) (nodes : List Node) : List (Token Node) :=
  nodes.filterMap fun node => node.token? source node

namespace Node

/-- A node is an item exactly if it is no directive. -/
theorem token?_bind_item? (source : List Char) (node : Node) (value : α) :
    (node.token? source value).bind Token.item? = if node.kind = .directive then none else some value := by
  by_cases h : node.kind = .directive
  · simp only [token?, h, ↓reduceIte]
    split <;> rfl
  · simp [token?, h, Token.item?]

theorem filterMap_item?_token? (source : List Char) (node : α → Node) (values : List α) :
    (values.filterMap fun value => (node value).token? source value).filterMap Token.item? =
      values.filter fun value => (node value).kind ≠ .directive := by
  rw [List.filterMap_filterMap, ← List.filterMap_eq_filter]
  congr 1
  funext value
  rw [token?_bind_item?]
  by_cases h : (node value).kind = .directive <;> simp [h, Option.guard]

/-- The elements of a node stand for the tokens of its children, without the strays and with all blocks
closed. They hold each child that is no directive once, in document order, and each of their blocks has
its branches in order. -/
theorem elements_written (source : List Char) (node : Node) :
    tokensOfElements (node.elements source) =
        Token.withoutStrays 0 (tokensOfNodes source node.children) ++
          List.replicate (Token.depthAfter 0 (tokensOfNodes source node.children)) .endIf ∧
      itemsOfElements (node.elements source) = node.children.filter (·.kind ≠ .directive) ∧
      ∀ element ∈ node.elements source, element.WellFormed :=
  ⟨tokens_group _, (items_group _).trans (filterMap_item?_token? source id node.children),
    group_wellFormed _⟩

end Node

end DocIndex
