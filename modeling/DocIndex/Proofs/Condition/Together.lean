import DocIndex.Proofs.Condition.Rebuilt

/-! # Items that stay together

Items that follow each other among the tokens stand next to each other in one and the same list of elements,
at the top level or in one clause (`group_together`). If the next token opens a block, the block comes right
after them in that list (`group_together_block`). -/

namespace DocIndex

variable {α : Type}

/-- The lists of elements in a forest: the forest itself, and the elements of each clause at any depth. -/
inductive Scope : List (Element α) → List (Element α) → Prop
  | top (forest : List (Element α)) : Scope forest forest
  | clause {forest list : List (Element α)} {directive : α} {clauses : List (Clause α)} {clause : Clause α}
      (block : .block directive clauses ∈ forest) (member : clause ∈ clauses) (inside : Scope clause.2 list) :
      Scope forest list

/-- Some elements stand next to each other in one list of a forest. -/
def Together (part forest : List (Element α)) : Prop :=
  ∃ list, Scope forest list ∧ part <:+: list

namespace Together

variable {part forest : List (Element α)}

theorem concat (h : Together part forest) (element : Element α) : Together part (forest ++ [element]) := by
  obtain ⟨list, hscope, hpart⟩ := h
  cases hscope with
  | top => exact ⟨_, .top _, hpart.trans (List.prefix_append _ _).isInfix⟩
  | clause block member inside => exact ⟨list, .clause (List.mem_append_left _ block) member inside, hpart⟩

theorem of_clause {directive : α} {clauses : List (Clause α)} {clause : Clause α}
    (block : .block directive clauses ∈ forest) (member : clause ∈ clauses) (h : Together part clause.2) :
    Together part forest := by
  obtain ⟨list, hscope, hpart⟩ := h
  exact ⟨list, .clause block member hscope, hpart⟩

end Together

/-! ### While the elements are built -/

/-- All clauses of an open block so far, the current one included. -/
def UnclosedBlock.clauses (block : UnclosedBlock α) : List (Clause α) :=
  block.done ++ [(block.branch, block.elements)]

namespace Grouping

/-- Some elements stand next to each other in one list of what has been built so far. -/
def Keeps (part : List (Element α)) (grouping : Grouping α) : Prop :=
  Together part grouping.top ∨ ∃ block ∈ grouping.blocks, ∃ clause ∈ block.clauses, Together part clause.2

namespace Keeps

variable {part : List (Element α)} {grouping : Grouping α}

theorem push (h : grouping.Keeps part) (element : Element α) : (grouping.push element).Keeps part := by
  rcases grouping with ⟨top, _ | ⟨inner, outer⟩⟩
  · rcases h with h | ⟨block, hblock, -⟩
    · exact .inl (h.concat element)
    · exact absurd hblock List.not_mem_nil
  · rcases h with h | ⟨block, hblock, clause, hclause, h⟩
    · exact .inl h
    · rcases List.mem_cons.mp hblock with rfl | hblock
      · -- The element goes to the end of the current clause of the innermost block.
        refine .inr ⟨_, List.mem_cons_self, ?_⟩
        rcases List.mem_append.mp hclause with hclause | hclause
        · exact ⟨clause, List.mem_append_left _ hclause, h⟩
        · obtain rfl := List.mem_singleton.mp hclause
          exact ⟨_, List.mem_append_right _ List.mem_cons_self, h.concat element⟩
      · exact .inr ⟨block, List.mem_cons_of_mem _ hblock, clause, hclause, h⟩

theorem next (h : grouping.Keeps part) (branch : Branch) : (grouping.next branch).Keeps part := by
  rcases grouping with ⟨top, _ | ⟨inner, outer⟩⟩
  · exact h
  · rcases h with h | ⟨block, hblock, clause, hclause, h⟩
    · exact .inl h
    · rcases List.mem_cons.mp hblock with rfl | hblock
      · exact .inr ⟨_, List.mem_cons_self, clause, List.mem_append_left _ hclause, h⟩
      · exact .inr ⟨block, List.mem_cons_of_mem _ hblock, clause, hclause, h⟩

theorem close (h : grouping.Keeps part) : grouping.close.Keeps part := by
  rcases grouping with ⟨top, _ | ⟨inner, outer⟩⟩
  · exact h
  · rcases h with h | ⟨block, hblock, clause, hclause, h⟩
    · have houter : Keeps part ⟨top, outer⟩ := .inl h
      exact houter.push inner.toElement
    · rcases List.mem_cons.mp hblock with rfl | hblock
      · -- The clauses of the block that closes are now those of an element of the list around it.
        cases outer with
        | nil => exact .inl (.of_clause (List.mem_append_right _ List.mem_cons_self) hclause h)
        | cons around outer =>
          refine .inr ⟨_, List.mem_cons_self, _, List.mem_append_right _ List.mem_cons_self, ?_⟩
          exact .of_clause (List.mem_append_right _ List.mem_cons_self) hclause h
      · have houter : Keeps part ⟨top, outer⟩ := .inr ⟨block, hblock, clause, hclause, h⟩
        exact houter.push inner.toElement

theorem step (h : grouping.Keeps part) (token : Token α) : (grouping.step token).Keeps part := by
  cases token with
  | item value => exact h.push _
  | ifTrue directive condition =>
    rcases h with h | ⟨block, hblock, rest⟩
    · exact .inl h
    · exact .inr ⟨block, List.mem_cons_of_mem _ hblock, rest⟩
  | elseIf condition => exact h.next _
  | otherwise => exact h.next _
  | endIf => exact h.close

theorem foldl (h : grouping.Keeps part) (tokens : List (Token α)) :
    (tokens.foldl Grouping.step grouping).Keeps part := by
  induction tokens generalizing grouping with
  | nil => exact h
  | cons token rest ih => exact ih (h.step token)

theorem closeMany (h : grouping.Keeps part) (n : Nat) (hdepth : grouping.depth = n) :
    Together part (Grouping.closeMany n grouping).top := by
  induction n generalizing grouping with
  | zero =>
    rcases h with h | ⟨block, hblock, -⟩
    · exact h
    · rw [List.length_eq_zero_iff.mp hdepth] at hblock
      exact absurd hblock List.not_mem_nil
  | succ n ih => exact ih h.close (by rw [depth_close, hdepth, Nat.add_sub_cancel])

theorem finish (h : grouping.Keeps part) : Together part grouping.finish :=
  h.closeMany _ rfl

end Keeps

theorem keeps_foldl_push (elements : List (Element α)) (grouping : Grouping α) :
    (elements.foldl push grouping).Keeps elements := by
  rcases grouping with ⟨top, _ | ⟨⟨directive, done, branch, before⟩, outer⟩⟩
  · rw [foldl_push_top]
    exact .inl ⟨_, .top _, (List.suffix_append _ _).isInfix⟩
  · rw [foldl_push_block]
    refine .inr ⟨_, List.mem_cons_self, _, List.mem_append_right _ List.mem_cons_self, ?_⟩
    exact ⟨_, .top _, (List.suffix_append _ _).isInfix⟩

theorem foldl_items (items : List α) (grouping : Grouping α) :
    (items.map Token.item).foldl step grouping = (items.map Element.item).foldl push grouping := by
  induction items generalizing grouping with
  | nil => rfl
  | cons item rest ih => exact ih _

/-- Whatever follows, an open block becomes one element of the list around it in the end. The tokens left over
are those after the one that closes it. -/
theorem exists_closed (tokens : List (Token α)) (top : List (Element α)) (block : UnclosedBlock α)
    (outer : List (UnclosedBlock α)) :
    ∃ clauses, ∃ rest : List (Token α), rest.length ≤ tokens.length ∧
      (tokens.foldl step ⟨top, block :: outer⟩).finish =
        (rest.foldl step (push ⟨top, outer⟩ (.block block.directive clauses))).finish := by
  match tokens with
  | [] =>
    have hdepth : (push ⟨top, outer⟩ block.toElement).blocks.length = outer.length := depth_push _ _
    refine ⟨block.clauses, [], Nat.le_refl _, ?_⟩
    show (closeMany outer.length (push ⟨top, outer⟩ block.toElement)).top = _
    rw [← hdepth]
    rfl
  | .item value :: tokens =>
    obtain ⟨clauses, rest, hlength, hfinish⟩ := exists_closed tokens top (block.push (.item value)) outer
    exact ⟨clauses, rest, Nat.le_succ_of_le hlength, hfinish⟩
  | .elseIf condition :: tokens =>
    obtain ⟨clauses, rest, hlength, hfinish⟩ := exists_closed tokens top (block.next (.elseIf condition)) outer
    exact ⟨clauses, rest, Nat.le_succ_of_le hlength, hfinish⟩
  | .otherwise :: tokens =>
    obtain ⟨clauses, rest, hlength, hfinish⟩ := exists_closed tokens top (block.next .otherwise) outer
    exact ⟨clauses, rest, Nat.le_succ_of_le hlength, hfinish⟩
  | .endIf :: tokens => exact ⟨block.clauses, tokens, Nat.le_succ _, rfl⟩
  | .ifTrue directive condition :: tokens =>
    -- The inner block closes first, and the tokens after it are fewer.
    obtain ⟨inner, between, hbetween, hinner⟩ :=
      exists_closed tokens top (.start directive (.ifTrue condition)) (block :: outer)
    obtain ⟨clauses, rest, hlength, hfinish⟩ :=
      exists_closed between top (block.push (.block directive inner)) outer
    exact ⟨clauses, rest, by simp; omega, hinner.trans hfinish⟩
termination_by tokens.length

end Grouping

open Grouping

theorem group_together (before : List (Token α)) (items : List α) (after : List (Token α)) :
    Together (items.map .item) (group (before ++ items.map .item ++ after)) := by
  rw [group, List.foldl_append, List.foldl_append, foldl_items]
  exact ((keeps_foldl_push _ _).foldl after).finish

theorem group_together_block (before : List (Token α)) (items : List α) (directive : α) (condition : String)
    (after : List (Token α)) : ∃ clauses, Together (items.map .item ++ [.block directive clauses])
      (group (before ++ items.map .item ++ .ifTrue directive condition :: after)) := by
  rw [group, List.foldl_append, List.foldl_append, foldl_items, List.foldl_cons]
  obtain ⟨clauses, rest, -, hfinish⟩ := exists_closed after
    ((items.map Element.item).foldl push (before.foldl Grouping.step .empty)).top
    (.start directive (.ifTrue condition))
    ((items.map Element.item).foldl push (before.foldl Grouping.step .empty)).blocks
  have hkeeps := keeps_foldl_push (items.map .item ++ [.block directive clauses])
    (before.foldl Grouping.step .empty)
  rw [List.foldl_append] at hkeeps
  exact ⟨clauses, hfinish ▸ (hkeeps.foldl rest).finish⟩

end DocIndex
