import DocIndex.Proofs.Condition.Enclosing

/-! # Elements rebuilt

Grouping inverts writing out. From whatever state it is in, it takes the tokens of a well-formed element
for one push of that element (`Element.WellFormed.takes`), so the tokens of some elements make
these elements again (`group_tokensOfElements`). Siblings that write a forest out, with directives of no
concern anywhere among them, are lowered to that forest (`Node.elements_rebuilt`). -/

namespace DocIndex

variable {α : Type}

/-! ### Tokens of elements, grouped -/

namespace Grouping

/-- From every state, grouping takes the tokens of the element for the element. -/
def Takes (element : Element α) : Prop :=
  ∀ grouping : Grouping α, element.tokens.foldl step grouping = grouping.push element

theorem foldl_tokensOfElements : ∀ {elements : List (Element α)}, (∀ element ∈ elements, Takes element) →
    ∀ grouping : Grouping α,
      (tokensOfElements elements).foldl step grouping = elements.foldl push grouping
  | [], _, _ => rfl
  | element :: rest, h, grouping => by
    obtain ⟨helement, hrest⟩ := List.forall_mem_cons.mp h
    rw [tokensOfElements, List.foldl_append, helement, foldl_tokensOfElements hrest, List.foldl_cons]

theorem foldl_push_top : ∀ (elements top : List (Element α)),
    elements.foldl push ⟨top, []⟩ = ⟨top ++ elements, []⟩
  | [], top => by rw [List.append_nil]; rfl
  | element :: rest, top => by
    have ih := foldl_push_top rest (top ++ [element])
    rw [List.append_assoc] at ih
    exact ih

theorem foldl_push_block (top : List (Element α)) (directive : α) (done : List (Clause α)) (branch : Branch)
    (outer : List (UnclosedBlock α)) : ∀ elements before : List (Element α),
      elements.foldl push ⟨top, ⟨directive, done, branch, before⟩ :: outer⟩ =
        ⟨top, ⟨directive, done, branch, before ++ elements⟩ :: outer⟩
  | [], before => by rw [List.append_nil]; rfl
  | element :: rest, before => by
    have ih := foldl_push_block top directive done branch outer rest (before ++ [element])
    rw [List.append_assoc] at ih
    exact ih

theorem step_token_of_not_opens {branch : Branch} (h : branch.opens = false) (directive : α)
    (grouping : Grouping α) : grouping.step (branch.token directive) = grouping.next branch := by
  cases branch with
  | ifTrue condition => exact nomatch h
  | elseIf condition | otherwise => rfl

/-- The clauses after the first and the end of their block, read while an earlier clause is open, whatever
is open around it. -/
theorem foldl_tokensOfClauses (written directive : α) (top : List (Element α))
    (outer : List (UnclosedBlock α)) : ∀ {clauses : List (Clause α)},
    (∀ clause ∈ clauses, clause.1.opens = false) →
    (∀ clause ∈ clauses, ∀ element ∈ clause.2, Takes element) → ∀ done branch elements,
      (tokensOfClauses written clauses ++ [Token.endIf]).foldl step
          ⟨top, ⟨directive, done, branch, elements⟩ :: outer⟩ =
        push ⟨top, outer⟩ (.block directive (done ++ (branch, elements) :: clauses))
  | [], _, _, _, _, _ => rfl
  | (branch, elements) :: rest, hbranches, htakes, done, previous, before => by
    obtain ⟨hbranch, hbranches⟩ := List.forall_mem_cons.mp hbranches
    obtain ⟨hfirst, htakes⟩ := List.forall_mem_cons.mp htakes
    have ih := foldl_tokensOfClauses written directive top outer hbranches htakes
      (done ++ [(previous, before)]) branch elements
    have helements := foldl_push_block top directive (done ++ [(previous, before)]) branch outer elements []
    rw [tokensOfClauses, List.cons_append, List.append_assoc, List.foldl_cons,
      step_token_of_not_opens hbranch, List.foldl_append, foldl_tokensOfElements hfirst]
    show (tokensOfClauses written rest ++ [Token.endIf]).foldl step
      (elements.foldl push ⟨top, ⟨directive, done ++ [(previous, before)], branch, []⟩ :: outer⟩) = _
    rw [helements, List.nil_append, ih, List.append_assoc]
    rfl

end Grouping

open Grouping in
theorem Element.WellFormed.takes {element : Element α} (h : element.WellFormed) : Takes element := by
  induction h with
  | item value => exact fun _ => rfl
  | @block directive clauses branches _ ih =>
    intro grouping
    -- The first clause opens the block, and the others are read while an earlier one is open.
    obtain ⟨condition, elements, rest, rfl, hrest⟩ := branches.cases
    obtain ⟨hfirst, hothers⟩ := List.forall_mem_cons.mp ih
    have hopened := foldl_push_block grouping.top directive [] (.ifTrue condition) grouping.blocks elements []
    have hclosed := foldl_tokensOfClauses directive directive grouping.top grouping.blocks hrest hothers []
      (.ifTrue condition) elements
    rw [tokens, tokensOfClauses, List.cons_append, List.append_assoc, List.foldl_cons, List.foldl_append,
      foldl_tokensOfElements hfirst]
    show (tokensOfClauses directive rest ++ [Token.endIf]).foldl step
      (elements.foldl push ⟨grouping.top, ⟨directive, [], .ifTrue condition, []⟩ :: grouping.blocks⟩) = _
    rw [hopened, List.nil_append, hclosed]
    rfl

/-- Grouping gives back the elements whose tokens it is given. -/
theorem group_tokensOfElements {elements : List (Element α)} (h : ∀ element ∈ elements, element.WellFormed) :
    group (tokensOfElements elements) = elements := by
  have htakes := Grouping.foldl_tokensOfElements fun element helement => (h element helement).takes
  have hpushed := Grouping.foldl_push_top elements []
  rw [group, htakes, Grouping.empty, hpushed]
  rfl

/-! ### Siblings that write elements out -/

/-- Whether a node is a directive whose text reads so. -/
structure Node.Reads (source : List Char) (node : Node) (directive : Directive) : Prop where
  kind : node.kind = .directive
  parse : Directive.parse? (node.text source) = some directive

/-- Whether a node is a directive that neither opens, divides nor closes a block. -/
structure Node.Unrelated (source : List Char) (node : Node) : Prop where
  kind : node.kind = .directive
  parse : Directive.parse? (node.text source) = some .other ∨ Directive.parse? (node.text source) = none

mutual

/-- The nodes write the elements out, one after another: an item as itself, and a block as the directive
that opens it, its clauses, and a directive that ends it. Unrelated directives stand anywhere. -/
inductive WritesElements (source : List Char) : List (Element Node) → List Node → Prop
  | nil : WritesElements source [] []
  | skip {elements : List (Element Node)} {nodes : List Node} (node : Node)
      (unrelated : node.Unrelated source) (rest : WritesElements source elements nodes) :
      WritesElements source elements (node :: nodes)
  | item {elements : List (Element Node)} {nodes : List Node} (node : Node)
      (plain : node.kind ≠ .directive) (rest : WritesElements source elements nodes) :
      WritesElements source (.item node :: elements) (node :: nodes)
  | block {branch : Branch} {first elements : List (Element Node)} {others : List (Clause Node)}
      {inside between after : List Node} (directive ending : Node)
      (opening : directive.Reads source branch.directive) (guarded : WritesElements source first inside)
      (clauses : WritesClauses source others between) (closing : ending.Reads source .endIf)
      (rest : WritesElements source elements after) :
      WritesElements source (.block directive ((branch, first) :: others) :: elements)
        (directive :: (inside ++ (between ++ ending :: after)))

/-- The nodes write the clauses out, one after another: each as a directive that reads as its branch,
followed by what writes its elements out. -/
inductive WritesClauses (source : List Char) : List (Clause Node) → List Node → Prop
  | nil : WritesClauses source [] []
  | cons {branch : Branch} {elements : List (Element Node)} {clauses : List (Clause Node)}
      {inside after : List Node} (head : Node)
      (opening : head.Reads source branch.directive) (guarded : WritesElements source elements inside)
      (rest : WritesClauses source clauses after) :
      WritesClauses source ((branch, elements) :: clauses) (head :: (inside ++ after))

end

section

variable {source : List Char} {node : Node}

theorem Node.Reads.token?_branch {branch : Branch} (h : node.Reads source branch.directive) :
    node.token? source node = some (branch.token node) := by
  cases branch <;> simp [token?, h.kind, h.parse, Branch.directive, Branch.token]

theorem Node.Reads.token?_endIf (h : node.Reads source .endIf) : node.token? source node = some .endIf := by
  simp [token?, h.kind, h.parse]

theorem Node.Unrelated.token? (h : node.Unrelated source) : node.token? source node = none := by
  rcases h.parse with hparse | hparse <;> simp [Node.token?, h.kind, hparse]

theorem Branch.token_of_not_opens {branch : Branch} (h : branch.opens = false) (first second : α) :
    branch.token first = branch.token second := by
  cases branch with
  | ifTrue condition => exact nomatch h
  | elseIf condition | otherwise => rfl

end

theorem tokensOfNodes_cons {source : List Char} {node : Node} {token : Option (Token Node)}
    (h : node.token? source node = token) (nodes : List Node) :
    tokensOfNodes source (node :: nodes) = token.toList ++ tokensOfNodes source nodes := by
  subst h
  rw [tokensOfNodes, List.filterMap_cons]
  cases node.token? source node <;> rfl

theorem tokensOfNodes_append (source : List Char) (first second : List Node) :
    tokensOfNodes source (first ++ second) = tokensOfNodes source first ++ tokensOfNodes source second :=
  List.filterMap_append

mutual

/-- Nodes that write elements out have the tokens of these elements. -/
theorem WritesElements.tokens {source : List Char} : ∀ {elements : List (Element Node)} {nodes : List Node},
    WritesElements source elements nodes → (∀ element ∈ elements, element.WellFormed) →
    tokensOfNodes source nodes = tokensOfElements elements
  | _, _, .nil, _ => rfl
  | _, _, .skip node unrelated rest, hformed => by
    rw [tokensOfNodes_cons unrelated.token?, rest.tokens hformed]
    rfl
  | _, _, .item node plain rest, hformed => by
    have htoken : node.token? source node = some (.item node) := by simp [Node.token?, plain]
    rw [tokensOfNodes_cons htoken, rest.tokens (List.forall_mem_cons.mp hformed).2]
    rfl
  | _, _, .block directive ending opening guarded clauses closing rest, hformed => by
    obtain ⟨hblock, hformed⟩ := List.forall_mem_cons.mp hformed
    cases hblock with
    | block branches elements =>
      obtain ⟨hfirst, hothers⟩ := List.forall_mem_cons.mp elements
      have hclauses := clauses.tokens directive
        (fun clause hclause => branches.2 _ (List.mem_map_of_mem hclause)) hothers
      rw [tokensOfNodes_cons opening.token?_branch, tokensOfNodes_append, tokensOfNodes_append,
        tokensOfNodes_cons closing.token?_endIf, guarded.tokens hfirst, hclauses, rest.tokens hformed]
      simp [tokensOfElements, Element.tokens, tokensOfClauses]

/-- The same for clauses that do not open their block. Their tokens do not name its directive. -/
theorem WritesClauses.tokens {source : List Char} : ∀ {clauses : List (Clause Node)} {nodes : List Node},
    WritesClauses source clauses nodes → ∀ directive : Node,
    (∀ clause ∈ clauses, clause.1.opens = false) →
    (∀ clause ∈ clauses, ∀ element ∈ clause.2, element.WellFormed) →
    tokensOfNodes source nodes = tokensOfClauses directive clauses
  | _, _, .nil, _, _, _ => rfl
  | _, _, .cons head opening guarded rest, directive, hbranches, hformed => by
    obtain ⟨hbranch, hbranches⟩ := List.forall_mem_cons.mp hbranches
    obtain ⟨hfirst, hformed⟩ := List.forall_mem_cons.mp hformed
    rw [tokensOfNodes_cons opening.token?_branch, tokensOfNodes_append, guarded.tokens hfirst,
      rest.tokens directive hbranches hformed, tokensOfClauses,
      Branch.token_of_not_opens hbranch head directive]
    rfl

end

/-- Siblings that write a well-formed forest out are lowered to that forest. -/
theorem Node.elements_rebuilt {source : List Char} {forest : List (Element Node)} {nodes : List Node}
    (hformed : ∀ element ∈ forest, element.WellFormed) (hwrites : WritesElements source forest nodes)
    (info : NodeInfo) : (Node.mk info nodes).elements source = forest := by
  show group (tokensOfNodes source nodes) = forest
  rw [hwrites.tokens hformed, group_tokensOfElements hformed]

open Node in
/-- A block with a second clause and another block inside the first, and a directive of no concern between
the two ends. -/
theorem Node.elements_rebuilt_nested :
    let source := "#if A\nx\n#if B\n#endif\n#line\n#else\ny\n#endif".toList
    let inner : Element Node := .block (bare .directive 8 13) [(.ifTrue "B", [])]
    let outer : Element Node := .block (bare .directive 0 5)
      [(.ifTrue "A", [.item (bare .comment 6 7), inner]), (.otherwise, [.item (bare .comment 33 34)])]
    let nodes := [bare .directive 0 5, bare .comment 6 7, bare .directive 8 13, bare .directive 14 20,
      bare .directive 21 26, bare .directive 27 32, bare .comment 33 34, bare .directive 35 41]
    outer.WellFormed ∧ WritesElements source [outer] nodes ∧
      (Node.mk (bare .comment 0 41).info nodes).elements source = [outer] := by
  intro source inner outer nodes
  have hinner : inner.WellFormed := .block ⟨rfl, by simp⟩ (by simp)
  have houter : outer.WellFormed := .block ⟨rfl, by simp [Branch.opens]⟩ (by
    simp [hinner, Element.WellFormed.item])
  have hwrites : WritesElements source [outer] nodes :=
    .block _ _ ⟨rfl, by decide⟩
      (.item _ (by decide) (.block _ _ ⟨rfl, by decide⟩ .nil .nil ⟨rfl, by decide⟩
        (.skip _ ⟨rfl, by decide⟩ .nil)))
      (.cons _ ⟨rfl, by decide⟩ (.item _ (by decide) .nil) .nil) ⟨rfl, by decide⟩ .nil
  exact ⟨houter, hwrites, elements_rebuilt (by simp [houter]) hwrites _⟩

end DocIndex
