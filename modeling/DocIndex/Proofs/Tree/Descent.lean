import DocIndex.Proofs.Condition.Map

/-! # Ways down a tree

A node below a root is reached by a descent: one step per level, to a child among its siblings. The
descents of a root list every node below it in document order (`Node.places_eq`). What a step says of
the siblings settles which clauses of conditional compilation are around the child
(`Step.enclosures`). -/

namespace DocIndex

/-- A step down to a child: the child with the siblings before it, the nearest first, and those after
it. -/
structure Step extends Place where
  following : List Node
  deriving Repr, Inhabited

/-- A way from a root down to a node below it: the steps to its ancestors, the outermost first, and the
step to the node itself. -/
structure Descent where
  ancestors : List Step
  last : Step
  deriving Repr, Inhabited

def Descent.under (step : Step) (descent : Descent) : Descent :=
  { descent with ancestors := step :: descent.ancestors }

/-- The steps to some siblings, given those before them, the nearest first. -/
def stepsAfter (preceding : List Node) : List Node → List Step
  | [] => []
  | node :: rest => ⟨⟨preceding, node⟩, rest⟩ :: stepsAfter (node :: preceding) rest

def Node.steps (node : Node) : List Step :=
  stepsAfter [] node.children

mutual

/-- The ways down from a node to all nodes below it, parents before children and children from left to
right. -/
def Node.descents : Node → List Descent
  | .mk _ children => descentsAfter [] children

def descentsAfter (preceding : List Node) : List Node → List Descent
  | [] => []
  | node :: rest =>
    ⟨[], ⟨⟨preceding, node⟩, rest⟩⟩ ::
      (node.descents.map (Descent.under ⟨⟨preceding, node⟩, rest⟩) ++
        descentsAfter (node :: preceding) rest)

end

theorem descentsAfter_eq : ∀ (preceding nodes : List Node),
    descentsAfter preceding nodes = (stepsAfter preceding nodes).flatMap fun step =>
      ⟨[], step⟩ :: step.node.descents.map (Descent.under step)
  | _, [] => by simp [descentsAfter, stepsAfter]
  | preceding, node :: rest => by
    simp [descentsAfter, stepsAfter, descentsAfter_eq (node :: preceding) rest]

theorem Node.descents_eq (node : Node) :
    node.descents = node.steps.flatMap fun step =>
      ⟨[], step⟩ :: step.node.descents.map (Descent.under step) := by
  obtain ⟨info, children⟩ := node
  exact descentsAfter_eq [] children

mutual

theorem Node.placesAfter_eq : ∀ (preceding : List Node) (node : Node),
    node.placesAfter preceding = ⟨preceding, node⟩ :: node.descents.map (·.last.toPlace)
  | preceding, .mk info children => by
    rw [Node.placesAfter, Node.descents, placesOfSiblings_eq [] children]

theorem placesOfSiblings_eq : ∀ preceding nodes : List Node,
    placesOfSiblings preceding nodes = (descentsAfter preceding nodes).map (·.last.toPlace)
  | _, [] => rfl
  | preceding, node :: rest => by
    rw [placesOfSiblings, Node.placesAfter_eq preceding node, placesOfSiblings_eq (node :: preceding) rest,
      descentsAfter]
    simp [Descent.under]

end

/-- The descents reach every node below the root once, in document order. -/
theorem Node.places_eq (root : Node) :
    root.places = ⟨[], root⟩ :: root.descents.map (·.last.toPlace) :=
  root.placesAfter_eq []

/-! ### Induction -/

theorem mem_children_of_mem_steps {node : Node} {step : Step} (h : step ∈ node.steps) :
    step.node ∈ node.children := by
  have key : ∀ (nodes preceding : List Node), step ∈ stepsAfter preceding nodes → step.node ∈ nodes := by
    intro nodes
    induction nodes with
    | nil => exact fun _ h => absurd h List.not_mem_nil
    | cons node rest ih =>
      intro preceding h
      rcases List.mem_cons.mp h with rfl | h
      · exact List.mem_cons_self
      · exact List.mem_cons_of_mem _ (ih _ h)
  exact key _ _ h

/-- What holds of a node whenever it holds of its children holds of every node. -/
theorem Node.induction {motive : Node → Prop}
    (node : ∀ node : Node, (∀ child ∈ node.children, motive child) → motive node) :
    ∀ root : Node, motive root
  | .mk _ children => node _ fun child _ => Node.induction node child
termination_by root => sizeOf root
decreasing_by
  have hlt : sizeOf child < sizeOf children := List.sizeOf_lt_of_mem ‹_›
  rw [Node.mk.sizeOf_spec]
  omega

/-! ### Clauses around a child -/

/-- The clauses that some tokens leave open, the innermost first. -/
def Token.openClauses {α : Type} (tokens : List (Token α)) : List (OpenClause α) :=
  tokens.foldl Token.reopen []

/-- The clauses of conditional compilation around a child among its siblings, the outermost first. Those
before it say which are open, and those after it which branches their blocks still have. -/
def Step.enclosures (source : List Char) (step : Step) : List (Enclosure Node) :=
  Token.enclosures (Token.openClauses (tokensOfNodes source step.preceding.reverse))
    (tokensOfNodes source step.following)

/-- The tokens of some siblings, with the steps to them in place of the nodes. -/
def stepTokens (source : List Char) (preceding nodes : List Node) : List (Token Step) :=
  (stepsAfter preceding nodes).filterMap fun step => step.node.token? source step

theorem stepTokens_cons (source : List Char) (preceding : List Node) (node : Node) (rest : List Node) :
    stepTokens source preceding (node :: rest) =
      (node.token? source ⟨⟨preceding, node⟩, rest⟩).toList ++ stepTokens source (node :: preceding) rest := by
  rw [stepTokens, stepsAfter, List.filterMap_cons]
  cases node.token? source (⟨⟨preceding, node⟩, rest⟩ : Step) <;> rfl

theorem tokensOfNodes_concat (source : List Char) (nodes : List Node) (node : Node) :
    tokensOfNodes source (nodes ++ [node]) =
      tokensOfNodes source nodes ++ (node.token? source node).toList := by
  rw [tokensOfNodes, List.filterMap_append, tokensOfNodes]
  cases h : node.token? source node <;> simp [h]

theorem Node.map_token? {α β : Type} (f : α → β) (source : List Char) (node : Node) (value : α) :
    (node.token? source value).map (Token.map f) = node.token? source (f value) := by
  unfold Node.token?
  split
  · split <;> rfl
  · rfl

theorem map_node_stepsAfter : ∀ preceding nodes : List Node,
    (stepsAfter preceding nodes).map (·.node) = nodes
  | _, [] => rfl
  | preceding, node :: rest => congrArg (List.cons node) (map_node_stepsAfter (node :: preceding) rest)

theorem map_node_stepTokens (source : List Char) (preceding nodes : List Node) :
    (stepTokens source preceding nodes).map (Token.map (·.node)) = tokensOfNodes source nodes := by
  have hsteps := map_node_stepsAfter preceding nodes
  rw [stepTokens, List.map_filterMap, tokensOfNodes, ← hsteps, List.filterMap_map]
  simp only [Node.map_token?, hsteps]
  rfl

/-- The clauses around the children, found in one go from left to right, are those that each step
says. -/
theorem enclosed_stepTokens (source : List Char) : ∀ (nodes preceding : List Node)
    (clauses : List (OpenClause Step)),
    clauses.map (·.map (·.node)) = Token.openClauses (tokensOfNodes source preceding.reverse) →
    (Token.enclosed clauses (stepTokens source preceding nodes)).map
        (fun found => (found.1.map (·.map (·.node)), found.2)) =
      ((stepsAfter preceding nodes).filter (·.node.kind ≠ .directive)).map
        fun step => (step.enclosures source, step)
  | [], _, _, _ => rfl
  | node :: rest, preceding, clauses, hclauses => by
    have hitem := node.token?_bind_item? source (⟨⟨preceding, node⟩, rest⟩ : Step)
    have hnode := node.map_token? (·.node) source (⟨⟨preceding, node⟩, rest⟩ : Step)
    have hbefore : Token.openClauses (tokensOfNodes source (node :: preceding).reverse) =
        (node.token? source node).toList.foldl Token.reopen (clauses.map (·.map (·.node))) := by
      rw [hclauses, List.reverse_cons, tokensOfNodes_concat, Token.openClauses, List.foldl_append]
      rfl
    rw [stepTokens_cons, stepsAfter, List.filter_cons]
    cases htoken : node.token? source (⟨⟨preceding, node⟩, rest⟩ : Step) with
    | none =>
      -- A directive that does not concern blocks.
      have hkind : node.kind = .directive := by
        by_cases hkind : node.kind = .directive
        · exact hkind
        · rw [htoken, if_neg hkind] at hitem
          exact nomatch hitem
      rw [htoken] at hnode
      have ih := enclosed_stepTokens source rest (node :: preceding) clauses
        (by rw [hbefore, ← hnode]; rfl)
      simpa [hkind] using ih
    | some token =>
      rw [htoken] at hnode hitem
      have ih := enclosed_stepTokens source rest (node :: preceding) (token.reopen clauses)
        (by rw [hbefore, ← hnode, ← Token.reopen_map]; rfl)
      have haround : (Token.enclosures clauses (stepTokens source (node :: preceding) rest)).map
          (·.map (·.node)) = Step.enclosures source ⟨⟨preceding, node⟩, rest⟩ := by
        rw [← Token.enclosures_map, hclauses, map_node_stepTokens, Step.enclosures]
      rw [Option.bind_some] at hitem
      rw [Option.toList_some, List.singleton_append, Token.enclosed, List.map_append, ih]
      by_cases hkind : node.kind = .directive
      · rw [if_pos hkind] at hitem
        simp [hitem, hkind]
      · rw [if_neg hkind] at hitem
        simp [hitem, hkind, haround]

end DocIndex
