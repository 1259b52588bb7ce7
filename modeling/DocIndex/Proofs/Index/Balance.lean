import DocIndex.Proofs.Index.Visit

/-! # The walk keeps its balance

From every state, each part of a walk ends without an imbalance, leaves the frames as it found them, and
only adds to what has been found (`Scene.visits_balanced`). A walk that starts without frames therefore
ends without frames, and a frame is on top again whenever the part inside it has ended. -/

namespace DocIndex

namespace Walk

/-- A walk goes on from one state to another: the frames are the same, and what was found is still there,
in front of what is new. -/
structure Continues (before after : Walk) : Prop where
  stack : after.stack = before.stack
  symbols : before.symbols <+: after.symbols
  imports : before.imports <+: after.imports

theorem continues_add (walk : Walk) (entries : List Entry) : walk.Continues (walk.add entries) :=
  ⟨rfl, List.prefix_append _ _, List.prefix_append _ _⟩

/-- From every state, the action ends without an imbalance, and the walk goes on from there. -/
def Balanced (action : Action) : Prop :=
  ∀ before, ∃ after, action before = .ok after ∧ before.Continues after

/-- Whenever the action has ended inside the frame, that very frame is on top, and it can be popped. -/
def Guarded (frame : Frame) (action : Action) : Prop :=
  ∀ walk : Walk, ∃ inner, action { walk with stack := frame :: walk.stack } = .ok inner ∧
    inner.stack = frame :: walk.stack ∧ leave frame.kind inner = .ok { inner with stack := walk.stack }

theorem Finds.balanced {action : Action} {found : List Frame → List Entry}
    (h : ∀ context, Finds context action (found context)) : Balanced action := fun walk =>
  ⟨_, h walk.context walk rfl, walk.continues_add _⟩

theorem Balanced.guarded {action : Action} (h : Balanced action) (frame : Frame) :
    Guarded frame action := by
  intro walk
  obtain ⟨inner, hinner, hcontinues⟩ := h { walk with stack := frame :: walk.stack }
  refine ⟨inner, hinner, hcontinues.stack, ?_⟩
  rw [leave, hcontinues.stack]
  simp

end Walk

namespace Scene

open Walk

variable (scene : Scene)

theorem visitNode_balanced (place : Place) :
    Balanced (scene.visitNode place.preceding place.node) :=
  Finds.balanced (scene.visitNode_finds place)

theorem visitChildren_balanced (node : Node) : Balanced (scene.visitChildren node) :=
  Finds.balanced (scene.visitChildren_finds node)

theorem visitContainer_balanced (place : Place) (declaration : Option Declaration) :
    Balanced (scene.visitContainer place declaration (scene.visitChildren place.node)) :=
  Finds.balanced fun context =>
    visitContainer_finds (scene.visitChildren_finds place.node) declaration context

theorem balanced_of_clauseFrames_nil {action : Action} {found : List Frame → List Entry}
    (h : ∀ context, Finds (context ++ scene.clauseFrames []) action (found context)) : Balanced action :=
  Finds.balanced fun context => scene.append_clauseFrames_nil context ▸ h context

theorem visitElement_balanced (element : Element Place) :
    Balanced (scene.visitElement (element.map scene.visits)) :=
  scene.balanced_of_clauseFrames_nil fun context =>
    scene.visitElement_finds (fun place : Place => place.node)
      (fun place : Place => scene.visitNode place.preceding place.node) scene.foundAt context element []
      fun place _ => scene.visitNode_finds place

theorem visitClauses_balanced (directive : Place) (branches : List Branch) (clauses : List (Clause Place)) :
    Balanced (scene.visitClauses (scene.table.locate directive.node.start) branches
      (mapClauses scene.visits clauses)) :=
  scene.balanced_of_clauseFrames_nil fun context =>
    scene.visitClauses_finds (fun place : Place => place.node)
      (fun place : Place => scene.visitNode place.preceding place.node) scene.foundAt context clauses []
      directive branches fun place _ => scene.visitNode_finds place

theorem visitElements_balanced (elements : List (Element Place)) :
    Balanced (scene.visitElements (mapElements scene.visits elements)) :=
  scene.balanced_of_clauseFrames_nil fun context =>
    scene.visitElements_finds (fun place : Place => place.node)
      (fun place : Place => scene.visitNode place.preceding place.node) scene.foundAt context elements []
      fun place _ => scene.visitNode_finds place

/-- A walk that starts without frames ends without frames, whatever it starts with otherwise. -/
theorem walkFrom_continues (symbols : List Symbol) (imports : List Import) (root : Node) :
    ∃ after, scene.walkFrom ⟨[], symbols, imports⟩ root = .ok after ∧ after.stack = [] ∧
      Continues ⟨[], symbols, imports⟩ after := by
  obtain ⟨after, hafter, hcontinues⟩ := scene.visitChildren_balanced root ⟨[], symbols, imports⟩
  have hstack : after.stack = [] := hcontinues.stack
  refine ⟨after, ?_, hstack, hcontinues⟩
  simp [walkFrom, hafter, hstack]

/-- Every part of a walk is balanced: the visit to a node, to an element, to the children of a node, to
the clauses of a block and to a type or protocol. So a whole walk never fails and ends without frames,
and every frame is on top when it is to be popped. -/
theorem visits_balanced :
    (∀ place : Place, Balanced (scene.visitNode place.preceding place.node)) ∧
      (∀ element : Element Place, Balanced (scene.visitElement (element.map scene.visits))) ∧
      (∀ node : Node, Balanced (scene.visitChildren node)) ∧
      (∀ (directive : Place) (branches : List Branch) (clauses : List (Clause Place)),
        Balanced (scene.visitClauses (scene.table.locate directive.node.start) branches
          (mapClauses scene.visits clauses))) ∧
      (∀ (place : Place) (declaration : Option Declaration),
        Balanced (scene.visitContainer place declaration (scene.visitChildren place.node))) ∧
      (∀ (symbols : List Symbol) (imports : List Import) (root : Node),
        ∃ after, scene.walkFrom ⟨[], symbols, imports⟩ root = .ok after ∧ after.stack = [] ∧
          Continues ⟨[], symbols, imports⟩ after) ∧
      (∀ (frame : Frame) (node : Node), Guarded frame (scene.visitChildren node)) ∧
      (∀ (frame : Frame) (elements : List (Element Place)),
        Guarded frame (scene.visitElements (mapElements scene.visits elements))) :=
  ⟨scene.visitNode_balanced, scene.visitElement_balanced, scene.visitChildren_balanced,
    scene.visitClauses_balanced, scene.visitContainer_balanced, scene.walkFrom_continues,
    fun frame node => (scene.visitChildren_balanced node).guarded frame,
    fun frame elements => (scene.visitElements_balanced elements).guarded frame⟩

end Scene

end DocIndex
