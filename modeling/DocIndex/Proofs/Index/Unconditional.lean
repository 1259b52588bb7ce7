import DocIndex.Proofs.Index.Contents

/-! # Conditional compilation aside

A plain walk takes the children of a node as they come and passes over the directives among them. It finds
what the walk finds: the same imports, and the same symbols without the conditions in their contexts
(`Scene.walk_unconditional`). Name, identifier and visibility of a symbol do not depend on conditions, so
these are the same too. -/

namespace DocIndex

/-! ### Symbols without conditions -/

/-- The frames that are no conditions. -/
def Frame.unconditional (frames : List Frame) : List Frame :=
  frames.filter (·.condition?.isNone)

namespace Symbol

/-- The symbol as if there were no conditional compilation. -/
def withoutConditions (s : Symbol) : Symbol :=
  { s with context := Frame.unconditional s.context }

/-- A condition adds nothing to a qualified name. -/
theorem qualifiedName_withoutConditions (s : Symbol) :
    s.withoutConditions.qualifiedName = s.qualifiedName := by
  have hscopes : (Frame.unconditional s.context).filterMap (·.scopeName?) =
      s.context.filterMap (·.scopeName?) := by
    rw [Frame.unconditional, List.filterMap_filter]
    congr 1
    funext frame
    cases frame <;> rfl
  rw [qualifiedName, qualifiedName, withoutConditions, hscopes]
  rfl

theorem id_withoutConditions (s : Symbol) : s.withoutConditions.id = s.id := by
  rw [id, identity, qualifiedName_withoutConditions]
  rfl

/-- Visibility is settled by the innermost frame that is no condition. -/
theorem isPublic_withoutConditions (s : Symbol) : s.withoutConditions.isPublic = s.isPublic := by
  have hinnermost : (Frame.unconditional s.context).reverse.find? (·.condition?.isNone) =
      s.context.reverse.find? (·.condition?.isNone) := by
    rw [Frame.unconditional, ← List.filter_reverse, List.find?_filter]
    congr 1
    funext frame
    cases frame.condition?.isNone <;> rfl
  unfold isPublic withoutConditions
  rw [hinnermost]

/-- The two symbols agree in all but the conditions, of which the second has none. -/
structure AgreesUnconditionally (s plain : Symbol) : Prop where
  declaration : plain.declaration = s.declaration
  documentation : plain.documentation = s.documentation
  location : plain.location = s.location
  qualifiedName : plain.qualifiedName = s.qualifiedName
  id : plain.id = s.id
  isPublic : plain.isPublic = s.isPublic
  context : plain.context = s.context.filter (·.condition?.isNone)

theorem agreesUnconditionally (s : Symbol) : s.AgreesUnconditionally s.withoutConditions :=
  ⟨rfl, rfl, rfl, s.qualifiedName_withoutConditions, s.id_withoutConditions,
    s.isPublic_withoutConditions, rfl⟩

end Symbol

namespace Scene

open Walk

/-! ### The plain walk -/

mutual

/-- Visits a node and what is below it, conditional compilation aside. -/
def visitNodePlainly (scene : Scene) (preceding : List Node) : Node → Walk.Action
  | .mk info children =>
    scene.visit ⟨preceding, .mk info children⟩ (scene.visitElements (scene.plainElements [] children))

/-- The children that are no directives, in order, each an element that carries its visit. -/
def plainElements (scene : Scene) (preceding : List Node) : List Node → List (Element (Node × Walk.Action))
  | [] => []
  | node :: rest =>
    (if node.kind = .directive then [] else [.item (node, scene.visitNodePlainly preceding node)]) ++
      scene.plainElements (node :: preceding) rest

end

/-- Visits the children of a node, conditional compilation aside. -/
def visitChildrenPlainly (scene : Scene) (node : Node) : Walk.Action :=
  scene.visitElements (scene.plainElements [] node.children)

/-- Walks over a whole tree, conditional compilation aside. -/
def walkPlainly (scene : Scene) (root : Node) : Except Imbalance Walk :=
  match scene.visitChildrenPlainly root {} with
  | .ok walk => if walk.stack.isEmpty then .ok walk else .error (.leftAfter walk.stack.length)
  | .error imbalance => .error imbalance

theorem visitNodePlainly_eq (scene : Scene) (place : Place) :
    scene.visitNodePlainly place.preceding place.node =
      scene.visit place (scene.visitChildrenPlainly place.node) := by
  obtain ⟨preceding, info, children⟩ := place
  rw [visitNodePlainly]
  rfl

theorem plainElements_eq (scene : Scene) (preceding nodes : List Node) :
    scene.plainElements preceding nodes =
      ((stepsAfter preceding nodes).filter (·.node.kind ≠ .directive)).map fun step =>
        .item (step.node, scene.visitNodePlainly step.preceding step.node) := by
  induction nodes generalizing preceding with
  | nil => rw [plainElements]; rfl
  | cons node rest ih =>
    rw [plainElements, ih, stepsAfter, List.filter_cons]
    by_cases hkind : node.kind = .directive <;> simp [hkind]

/-! ### What it finds -/

/-- The frames of the nodes that are passed on the way down. -/
def passedFrames (scene : Scene) (descent : Descent) : List Frame :=
  descent.ancestors.flatMap fun step => (scene.frame? step.toPlace).toList

theorem passedFrames_under (scene : Scene) (step : Step) (descent : Descent) :
    scene.passedFrames (descent.under step) =
      (scene.frame? step.toPlace).toList ++ scene.passedFrames descent := by
  simp [passedFrames, Descent.under]

/-- What the reachable nodes below a node yield, in document order, conditional compilation aside. -/
def plainEntriesBelow (scene : Scene) (context : List Frame) (node : Node) : List Entry :=
  (node.descents.filter (·.Reachable)).flatMap fun descent =>
    scene.entriesIn (context ++ scene.passedFrames descent) descent.last.toPlace

theorem plainEntriesBelow_eq (scene : Scene) (context : List Frame) (node : Node) :
    scene.plainEntriesBelow context node =
      (node.steps.filter (·.node.kind ≠ .directive)).flatMap fun step =>
        scene.entriesIn context step.toPlace ++
          if step.node.kind.isLeaf then []
          else scene.plainEntriesBelow (context ++ (scene.frame? step.toPlace).toList) step.node := by
  have hhere (step : Step) : context ++ scene.passedFrames ⟨[], step⟩ = context := List.append_nil _
  rw [plainEntriesBelow, Node.flatMap_reachable]
  simp only [passedFrames_under, plainEntriesBelow, List.append_assoc, hhere]
  rfl

theorem visitElements_items_finds (scene : Scene) {context : List Frame} {action : Step → Action}
    {found : Step → List Entry} : ∀ {steps : List Step},
    (∀ step ∈ steps, Finds context (action step) (found step)) →
    Finds context (scene.visitElements (steps.map fun step => .item (step.node, action step)))
      (steps.flatMap found)
  | [], _ => Finds.stay context
  | step :: rest, h => by
    obtain ⟨hstep, hrest⟩ := List.forall_mem_cons.mp h
    rw [List.map_cons, visitElements, visitElement, List.flatMap_cons]
    exact hstep.andThen (scene.visitElements_items_finds hrest)

theorem visitChildrenPlainly_finds (scene : Scene) (node : Node) : ∀ context : List Frame,
    Finds context (scene.visitChildrenPlainly node) (scene.plainEntriesBelow context node) := by
  induction node using Node.induction with
  | node node ih =>
    intro context
    rw [visitChildrenPlainly, plainElements_eq, plainEntriesBelow_eq]
    refine scene.visitElements_items_finds fun step hstep => ?_
    have hchild := mem_children_of_mem_steps (List.mem_filter.mp hstep).1
    rw [visitNodePlainly_eq]
    exact visit_finds (ih step.node hchild) context

theorem walkPlainly_eq (scene : Scene) (root : Node) :
    scene.walkPlainly root = .ok (Walk.add (scene.plainEntriesBelow [] root) {}) := by
  have hfinds := scene.visitChildrenPlainly_finds root [] {} rfl
  simp [walkPlainly, hfinds, Walk.add]

/-! ### Conditions removed from contexts -/

theorem unconditional_clauseFrames (scene : Scene) (enclosures : List (Enclosure Node)) :
    Frame.unconditional (scene.clauseFrames enclosures) = [] := by
  rw [Frame.unconditional, List.filter_eq_nil_iff]
  intro frame hframe
  obtain ⟨enclosure, -, rfl⟩ := List.mem_map.mp hframe
  exact Bool.false_ne_true

/-- A node puts no condition around what is below it. -/
theorem unconditional_frame? (scene : Scene) (place : Place) :
    Frame.unconditional (scene.frame? place).toList = (scene.frame? place).toList := by
  rw [Frame.unconditional, List.filter_eq_self]
  intro frame hframe
  rw [Option.mem_toList] at hframe
  unfold frame? containerFrame? at hframe
  split at hframe
  next extension _ =>
    obtain rfl := Option.some.inj hframe
    rfl
  next =>
    split at hframe
    next =>
      obtain ⟨declaration, -, rfl⟩ := Option.map_eq_some_iff.mp hframe
      rfl
    next => exact nomatch hframe

theorem unconditional_contextOf (scene : Scene) (descent : Descent) :
    Frame.unconditional (scene.contextOf descent) = scene.passedFrames descent := by
  have hfilter (first second : List Frame) : Frame.unconditional (first ++ second) =
      Frame.unconditional first ++ Frame.unconditional second := List.filter_append ..
  obtain ⟨ancestors, last⟩ := descent
  induction ancestors with
  | nil => exact scene.unconditional_clauseFrames _
  | cons step rest ih =>
    have hcontext := scene.contextOf_under step ⟨rest, last⟩
    have hpassed := scene.passedFrames_under step ⟨rest, last⟩
    rw [Descent.under] at hcontext hpassed
    rw [hcontext, hpassed, hfilter, hfilter, ih, unconditional_clauseFrames, unconditional_frame?]
    rfl

theorem filterMap_symbol?_plainEntriesBelow (scene : Scene) (root : Node) :
    (scene.plainEntriesBelow [] root).filterMap (·.symbol?) =
      ((scene.entriesBelow [] root).filterMap (·.symbol?)).map Symbol.withoutConditions := by
  have hsymbols (descent : Descent) : scene.symbolsIn (scene.passedFrames descent) descent.last.toPlace =
      (scene.symbolsIn (scene.contextOf descent) descent.last.toPlace).map Symbol.withoutConditions := by
    rw [symbolsIn, symbolsIn, List.map_map, ← unconditional_contextOf]
    rfl
  rw [filterMap_symbol?_entriesBelow, plainEntriesBelow, List.filterMap_flatMap, List.map_flatMap]
  simp only [filterMap_symbol?_entriesIn, List.nil_append, hsymbols]

theorem filterMap_import?_plainEntriesBelow (scene : Scene) (root : Node) :
    (scene.plainEntriesBelow [] root).filterMap (·.import?) =
      (scene.entriesBelow [] root).filterMap (·.import?) := by
  rw [filterMap_import?_entriesBelow, plainEntriesBelow, List.filterMap_flatMap]
  simp only [filterMap_import?_entriesIn]

/-- The plain walk finds the imports that the walk finds, and symbol by symbol what it finds, with the
conditions removed from the contexts and all else the same. -/
theorem walk_unconditional (scene : Scene) (root : Node) :
    ∃ found plain, scene.walk root = .ok found ∧ scene.walkPlainly root = .ok plain ∧
      plain.imports = found.imports ∧ plain.symbols.length = found.symbols.length ∧
      ∀ pair ∈ found.symbols.zip plain.symbols, pair.1.AgreesUnconditionally pair.2 := by
  refine ⟨_, _, scene.walk_eq root, scene.walkPlainly_eq root, ?_⟩
  simp only [Walk.add, List.nil_append, filterMap_symbol?_plainEntriesBelow,
    filterMap_import?_plainEntriesBelow, List.length_map, true_and]
  intro pair hpair
  have hzip := List.zip_map' (f := fun s : Symbol => s) (g := Symbol.withoutConditions)
    (l := (scene.entriesBelow [] root).filterMap (·.symbol?))
  rw [List.map_id'] at hzip
  rw [hzip] at hpair
  obtain ⟨s, -, rfl⟩ := List.mem_map.mp hpair
  exact s.agreesUnconditionally

end Scene

end DocIndex
