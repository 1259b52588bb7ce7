import DocIndex.Proofs.Extract.Reading
import DocIndex.Proofs.Index.Found
import DocIndex.Proofs.Tree.Descent

/-! # What a visit finds

A visit to the children of a node finds, in document order, what each node below it yields for itself.
Left out are directives and what is below a directive or a leaf (`Descent.Reachable`). The context of a
node is settled by the way down to it: at each level the clauses around the node among its siblings, and
between two levels the frame of the upper node (`Scene.contextOf`). -/

namespace DocIndex

/-- Whether a walk gets to a node: neither it nor a node above it is a directive, and no node above it is
a leaf. -/
def Descent.Reachable (descent : Descent) : Prop :=
  descent.last.node.kind ≠ .directive ∧
    ∀ step ∈ descent.ancestors, step.node.kind ≠ .directive ∧ step.node.kind.isLeaf = false

instance : DecidablePred Descent.Reachable := fun _ => inferInstanceAs (Decidable (_ ∧ _))

namespace Descent

theorem reachable_singleton {step : Step} : Reachable ⟨[], step⟩ ↔ step.node.kind ≠ .directive := by
  simp [Reachable]

theorem reachable_under {step : Step} {descent : Descent} :
    (descent.under step).Reachable ↔
      step.node.kind ≠ .directive ∧ step.node.kind.isLeaf = false ∧ descent.Reachable := by
  simp only [Reachable, under, List.mem_cons, forall_eq_or_imp]
  constructor
  · rintro ⟨hlast, ⟨hstep, hleaf⟩, hancestors⟩
    exact ⟨hstep, hleaf, hlast, hancestors⟩
  · rintro ⟨hstep, hleaf, hlast, hancestors⟩
    exact ⟨hlast, ⟨hstep, hleaf⟩, hancestors⟩

end Descent

/-- The reachable nodes below a node: the children that are no directives, and below each that is no leaf
the nodes reachable from there. -/
theorem Node.flatMap_reachable {β : Type} (node : Node) (f : Descent → List β) :
    (node.descents.filter (·.Reachable)).flatMap f =
      (node.steps.filter (·.node.kind ≠ .directive)).flatMap fun step =>
        f ⟨[], step⟩ ++
          if step.node.kind.isLeaf then []
          else (step.node.descents.filter (·.Reachable)).flatMap fun descent => f (descent.under step) := by
  rw [node.descents_eq]
  induction node.steps with
  | nil => rfl
  | cons step rest ih =>
    rw [List.flatMap_cons, List.filter_append, List.flatMap_append, ih, List.filter_cons, List.filter_cons,
      List.filter_map]
    by_cases hkind : step.node.kind = .directive
    · simp [Descent.reachable_singleton, Descent.reachable_under, hkind, Function.comp_def]
    · cases hleaf : step.node.kind.isLeaf <;>
        simp [Descent.reachable_singleton, Descent.reachable_under, hkind, hleaf, Function.comp_def,
          List.flatMap_map]

namespace Scene

open Walk

variable {scene : Scene}

/-! ### What a node yields -/

/-- What the extractors yield for a node, with its documentation and location, if it is documented. -/
def declared (scene : Scene) (place : Place) : List (Declaration × Documentation × Location) :=
  match scene.document? place with
  | some documentation =>
    (Extract.declarations scene.source place.node).map fun declaration =>
      (declaration, documentation, scene.table.locate place.node.start)
  | none => []

/-- The symbols that a node yields in a context. -/
def symbolsIn (scene : Scene) (context : List Frame) (place : Place) : List Symbol :=
  (scene.declared place).map fun (declaration, documentation, location) =>
    ⟨declaration, context, documentation, location⟩

/-- What a node yields in a context: its symbols, or an import. -/
def entriesIn (scene : Scene) (context : List Frame) (place : Place) : List Entry :=
  (scene.symbolsIn context place).map .symbol ++
    (Extract.import? scene.source place.node).toList.map .imported

/-- The frame of a type or protocol, which only a documented one has. -/
def containerFrame? (scene : Scene) (place : Place) (declaration : Option Declaration) : Option Frame :=
  if (scene.document? place).isSome then declaration.map fun declaration => .container (.ofDeclaration declaration)
  else none

/-- The frame that a node puts around what is below it. -/
def frame? (scene : Scene) (place : Place) : Option Frame :=
  match Extract.extension? scene.source place.node with
  | some extension => some (.extension extension)
  | none =>
    scene.containerFrame? place
      (Extract.nominal? scene.source place.node <|> Extract.protocol? scene.source place.node)

theorem symbols_eq (scene : Scene) (context : List Frame) (place : Place) :
    scene.symbols place context (Extract.declarations scene.source place.node) =
      scene.symbolsIn context place := by
  unfold symbols symbolsIn declared
  cases scene.document? place <;> simp

theorem symbols_nil (scene : Scene) (context : List Frame) (place : Place) :
    scene.symbols place context [] = [] := by
  unfold symbols
  cases scene.document? place <;> rfl

/-! ### Visits to one node -/

section

variable {place : Place} {children : Action} {below : List Frame → List Entry}

theorem visitContainer_finds (h : ∀ context, Finds context children (below context))
    (declaration : Option Declaration) (context : List Frame) :
    Finds context (scene.visitContainer place declaration children)
      ((scene.symbols place context declaration.toList).map .symbol ++
        below (context ++ (scene.containerFrame? place declaration).toList)) := by
  intro walk hcontext
  cases declaration with
  | none => simpa [visitContainer, symbols_nil, containerFrame?] using h context walk hcontext
  | some declaration =>
    cases hdocument : scene.document? place with
    | none =>
      simpa [visitContainer, symbols, containerFrame?, hdocument] using h context walk hcontext
    | some documentation =>
      have hinside := (h (context ++ [.container (.ofDeclaration declaration)])).within
      have := hinside.after_add ((scene.symbols place context [declaration]).map .symbol) walk hcontext
      simpa [visitContainer, symbols, containerFrame?, hdocument, hcontext, emit_eq_add] using this

/-- A node yields what the extractors make of it. Its children follow unless it is a leaf, inside the
frame of the node if it has one. -/
theorem visit_finds (h : ∀ context, Finds context children (below context)) (context : List Frame) :
    Finds context (scene.visit place children)
      (scene.entriesIn context place ++
        if place.node.kind.isLeaf then [] else below (context ++ (scene.frame? place).toList)) := by
  have hreading := place.node.reading_describes scene.source
  rw [entriesIn, ← symbols_eq, hreading.declarations, hreading.imported, hreading.isLeaf, frame?,
    hreading.extension?, hreading.container?]
  intro walk hcontext
  unfold visit
  cases place.node.reading scene.source with
  | container declaration => simpa using visitContainer_finds h declaration context walk hcontext
  | extension extension =>
    cases extension with
    | none => simpa [symbols_nil, containerFrame?] using h context walk hcontext
    | some extension => simpa [symbols_nil] using (h (context ++ [.extension extension])).within walk hcontext
  | leaf declarations => simp [emit_eq_add, hcontext]
  | imported entry =>
    cases entry with
    | none => simp [symbols_nil]
    | some entry => simp [symbols_nil, record_eq_add]
  | passage => simpa [symbols_nil, containerFrame?] using h context walk hcontext

end

/-! ### Visits to children -/

/-- A node as an item to visit. -/
def visits (scene : Scene) (place : Place) : Node × Action :=
  (place.node, scene.visitNode place.preceding place.node)

theorem visitNode_eq (scene : Scene) (place : Place) :
    scene.visitNode place.preceding place.node = scene.visit place (scene.visitChildren place.node) := by
  obtain ⟨preceding, info, children⟩ := place
  rw [visitNode]
  rfl

theorem childTokens_eq (scene : Scene) (preceding nodes : List Node) :
    scene.childTokens preceding nodes =
      (stepTokens scene.source preceding nodes).map (Token.map fun step => scene.visits step.toPlace) := by
  induction nodes generalizing preceding with
  | nil => rw [childTokens]; rfl
  | cons node rest ih =>
    have htoken := node.map_token? (fun step : Step => scene.visits step.toPlace) scene.source
      ⟨⟨preceding, node⟩, rest⟩
    rw [childTokens, ih, stepTokens_cons, List.map_append, ← Option.toList_map, htoken]
    rfl

theorem visitChildren_eq (scene : Scene) (node : Node) :
    scene.visitChildren node =
      scene.visitElements (mapElements (fun step : Step => scene.visits step.toPlace)
        (group (stepTokens scene.source [] node.children))) := by
  rw [visitChildren, childTokens_eq, group_map]

/-- The context of a node: on the way down, the clauses around each step, and the frames of the nodes
that are passed. -/
def contextOf (scene : Scene) (descent : Descent) : List Frame :=
  (descent.ancestors.flatMap fun step =>
      scene.clauseFrames (step.enclosures scene.source) ++ (scene.frame? step.toPlace).toList) ++
    scene.clauseFrames (descent.last.enclosures scene.source)

theorem contextOf_under (scene : Scene) (step : Step) (descent : Descent) :
    scene.contextOf (descent.under step) =
      scene.clauseFrames (step.enclosures scene.source) ++ (scene.frame? step.toPlace).toList ++
        scene.contextOf descent := by
  simp [contextOf, Descent.under]

/-- What the reachable nodes below a node yield, in document order. -/
def entriesBelow (scene : Scene) (context : List Frame) (node : Node) : List Entry :=
  (node.descents.filter (·.Reachable)).flatMap fun descent =>
    scene.entriesIn (context ++ scene.contextOf descent) descent.last.toPlace

/-- What is found at a node: what it yields, and what is found below it unless it is a leaf. -/
def foundAt (scene : Scene) (place : Place) (context : List Frame) : List Entry :=
  scene.entriesIn context place ++
    if place.node.kind.isLeaf then []
    else scene.entriesBelow (context ++ (scene.frame? place).toList) place.node

theorem entriesBelow_eq (scene : Scene) (context : List Frame) (node : Node) :
    scene.entriesBelow context node =
      (node.steps.filter (·.node.kind ≠ .directive)).flatMap fun step =>
        scene.foundAt step.toPlace (context ++ scene.clauseFrames (step.enclosures scene.source)) := by
  rw [entriesBelow, Node.flatMap_reachable]
  simp only [contextOf_under, foundAt, entriesBelow, List.append_assoc]
  rfl

/-- What the children find in one go is what is found at the steps to them. -/
theorem foundAmong_stepTokens (scene : Scene) (context : List Frame) (node : Node) :
    scene.foundAmong (fun step => step.node) (fun step => scene.foundAt step.toPlace) context
        (enclosedOfElements [] (group (stepTokens scene.source [] node.children))) =
      scene.entriesBelow context node := by
  have hsteps := enclosed_stepTokens scene.source node.children [] [] rfl
  have := congrArg (List.flatMap fun item =>
    scene.foundAt item.2.toPlace (context ++ scene.clauseFrames item.1)) hsteps
  rw [List.flatMap_map, List.flatMap_map] at this
  rw [enclosed_group, entriesBelow_eq]
  exact this

theorem visitChildren_finds (scene : Scene) (node : Node) : ∀ context : List Frame,
    Finds context (scene.visitChildren node) (scene.entriesBelow context node) := by
  induction node using Node.induction with
  | node node ih =>
    intro context
    have hsteps : ∀ step ∈ itemsOfElements (group (stepTokens scene.source [] node.children)),
        ∀ context, Finds context (scene.visitNode step.preceding step.node)
          (scene.foundAt step.toPlace context) := by
      intro step hstep context
      rw [items_group, stepTokens, Node.filterMap_item?_token?] at hstep
      have hchild := mem_children_of_mem_steps (List.mem_filter.mp hstep).1
      rw [visitNode_eq]
      exact visit_finds (ih step.node hchild) context
    have hfinds := scene.visitElements_finds (fun step : Step => step.node)
      (fun step => scene.visitNode step.preceding step.node) (fun step => scene.foundAt step.toPlace) context
      (group (stepTokens scene.source [] node.children)) [] hsteps
    rw [foundAmong_stepTokens, List.map_nil, append_clauseFrames_nil] at hfinds
    rw [visitChildren_eq]
    exact hfinds

theorem visitNode_finds (scene : Scene) (place : Place) (context : List Frame) :
    Finds context (scene.visitNode place.preceding place.node) (scene.foundAt place context) := by
  rw [visitNode_eq]
  exact visit_finds (scene.visitChildren_finds place.node) context

end Scene

end DocIndex
