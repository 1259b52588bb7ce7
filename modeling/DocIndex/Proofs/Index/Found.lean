import DocIndex.Index.Walk
import DocIndex.Proofs.Condition.Map

/-! # What a part of a walk finds

A part of a walk is understood once it is known which entries it finds in which context: it ends without
an imbalance, leaves the frames as they were, and adds these entries at the end (`Finds`). Frames opened
and closed on the way only show in the contexts of the parts inside them. -/

namespace DocIndex

/-- What a walk finds. -/
inductive Entry where
  | symbol (symbol : Symbol)
  | imported (entry : Import)
  deriving DecidableEq, Repr, Inhabited

namespace Entry

def symbol? : Entry → Option Symbol
  | .symbol found => some found
  | .imported _ => none

def import? : Entry → Option Import
  | .symbol _ => none
  | .imported found => some found

theorem filterMap_symbol?_map_symbol (symbols : List Symbol) :
    (symbols.map Entry.symbol).filterMap symbol? = symbols := by
  rw [List.filterMap_map]
  exact List.filterMap_some

theorem filterMap_import?_map_symbol (symbols : List Symbol) :
    (symbols.map Entry.symbol).filterMap import? = [] := by
  rw [List.filterMap_map, List.filterMap_eq_nil_iff]
  exact fun _ _ => rfl

end Entry

namespace Walk

/-- Adds entries to what has been found. -/
def add (entries : List Entry) (walk : Walk) : Walk :=
  { walk with
    symbols := walk.symbols ++ entries.filterMap (·.symbol?)
    imports := walk.imports ++ entries.filterMap (·.import?) }

@[simp]
theorem add_nil (walk : Walk) : walk.add [] = walk := by
  simp [add]

@[simp]
theorem add_add (first second : List Entry) (walk : Walk) :
    (walk.add first).add second = walk.add (first ++ second) := by
  simp [add]

@[simp]
theorem context_add (entries : List Entry) (walk : Walk) : (walk.add entries).context = walk.context :=
  rfl

theorem emit_eq_add (symbols : List Symbol) (walk : Walk) :
    walk.emit symbols = walk.add (symbols.map .symbol) := by
  rw [add, Entry.filterMap_symbol?_map_symbol, Entry.filterMap_import?_map_symbol, List.append_nil, emit]

theorem record_eq_add (entry : Import) (walk : Walk) : walk.record entry = walk.add [.imported entry] := by
  simp [add, record, Entry.symbol?, Entry.import?]

/-- In the given context, the action finds the given entries: it ends without an imbalance, leaves the
frames as they were, and adds the entries. -/
def Finds (context : List Frame) (action : Action) (entries : List Entry) : Prop :=
  ∀ walk : Walk, walk.context = context → action walk = .ok (walk.add entries)

namespace Finds

variable {context : List Frame} {action first second : Action} {entries entries₁ entries₂ : List Entry}

theorem stay (context : List Frame) : Finds context Walk.stay [] := fun walk _ => by
  rw [add_nil]
  rfl

theorem andThen (h₁ : Finds context first entries₁) (h₂ : Finds context second entries₂) :
    Finds context (Walk.andThen first second) (entries₁ ++ entries₂) := fun walk hcontext => by
  unfold Walk.andThen
  rw [h₁ walk hcontext]
  show second (walk.add entries₁) = _
  rw [h₂ _ (by rw [context_add, hcontext]), add_add]

/-- The frame that was pushed is on top again when it is popped. -/
theorem within {frame : Frame} (h : Finds (context ++ [frame]) action entries) :
    Finds context (Walk.within frame action) entries := fun walk hcontext => by
  have hinner : ({ walk with stack := frame :: walk.stack } : Walk).context = context ++ [frame] := by
    rw [← hcontext]
    exact List.reverse_cons
  unfold Walk.within
  rw [h _ hinner]
  simp [leave, add]

theorem after_add (earlier : List Entry) (h : Finds context action entries) :
    Finds context (fun walk => action (walk.add earlier)) (earlier ++ entries) := fun walk hcontext => by
  show action (walk.add earlier) = _
  rw [h _ (by rw [context_add, hcontext]), add_add]

end Finds

end Walk

/-! ### Elements -/

namespace Scene

open Walk

variable {α : Type} {scene : Scene}

/-- The frame of a clause around an item. -/
def clauseFrame (scene : Scene) (enclosure : Enclosure Node) : Frame :=
  .condition ⟨⟨enclosure.branches, scene.table.locate enclosure.directive.start⟩, enclosure.branch⟩

/-- The frames of the clauses around an item. -/
def clauseFrames (scene : Scene) (enclosures : List (Enclosure Node)) : List Frame :=
  enclosures.map scene.clauseFrame

/-- What the items find, each in a context with the frames of the clauses around it. -/
def foundAmong (scene : Scene) (node : α → Node) (found : α → List Frame → List Entry)
    (context : List Frame) (items : List (List (Enclosure α) × α)) : List Entry :=
  items.flatMap fun item =>
    found item.2 (context ++ scene.clauseFrames (item.1.map (·.map node)))

theorem append_clauseFrames_nil (scene : Scene) (context : List Frame) :
    context ++ scene.clauseFrames [] = context :=
  List.append_nil _

theorem foundAmong_append (node : α → Node) (found : α → List Frame → List Entry) (context : List Frame)
    (first second : List (List (Enclosure α) × α)) :
    scene.foundAmong node found context (first ++ second) =
      scene.foundAmong node found context first ++ scene.foundAmong node found context second :=
  List.flatMap_append

section

variable (scene) (node : α → Node) (action : α → Action) (found : α → List Frame → List Entry)

mutual

theorem visitElement_finds (context : List Frame) : ∀ (element : Element α) (around : List (Enclosure α)),
    (∀ item ∈ element.items, ∀ context, Finds context (action item) (found item context)) →
    Finds (context ++ scene.clauseFrames (around.map (·.map node)))
      (scene.visitElement (element.map fun item => (node item, action item)))
      (scene.foundAmong node found context (element.enclosed around))
  | .item value, around, h => by
    simpa [Element.map, visitElement, Element.enclosed, foundAmong] using h value (by simp [Element.items]) _
  | .block directive clauses, around, h => by
    have := visitClauses_finds context clauses around directive (clauses.map (·.1)) h
    rw [Element.map, visitElement, Element.enclosed, map_fst_mapClauses]
    exact this

theorem visitClauses_finds (context : List Frame) : ∀ (clauses : List (Clause α))
    (around : List (Enclosure α)) (directive : α) (branches : List Branch),
    (∀ item ∈ itemsOfClauses clauses, ∀ context, Finds context (action item) (found item context)) →
    Finds (context ++ scene.clauseFrames (around.map (·.map node)))
      (scene.visitClauses (scene.table.locate (node directive).start) branches
        (mapClauses (fun item => (node item, action item)) clauses))
      (scene.foundAmong node found context (enclosedOfClauses around directive branches clauses))
  | [], around, directive, branches, _ => Finds.stay _
  | (branch, elements) :: rest, around, directive, branches, h => by
    have helements := visitElements_finds context elements (around ++ [⟨directive, branches, branch⟩])
      fun item hitem => h item (List.mem_append_left _ hitem)
    have hrest := visitClauses_finds context rest around directive branches
      fun item hitem => h item (List.mem_append_right _ hitem)
    rw [mapClauses, visitClauses, enclosedOfClauses, foundAmong_append]
    refine Finds.andThen (Finds.within ?_) hrest
    simpa [clauseFrames, clauseFrame, Walk.clauseFrame, Enclosure.map] using helements

theorem visitElements_finds (context : List Frame) : ∀ (elements : List (Element α))
    (around : List (Enclosure α)),
    (∀ item ∈ itemsOfElements elements, ∀ context, Finds context (action item) (found item context)) →
    Finds (context ++ scene.clauseFrames (around.map (·.map node)))
      (scene.visitElements (mapElements (fun item => (node item, action item)) elements))
      (scene.foundAmong node found context (enclosedOfElements around elements))
  | [], around, _ => Finds.stay _
  | element :: rest, around, h => by
    have helement := visitElement_finds context element around
      fun item hitem => h item (List.mem_append_left _ hitem)
    have hrest := visitElements_finds context rest around
      fun item hitem => h item (List.mem_append_right _ hitem)
    rw [mapElements, visitElements, enclosedOfElements, foundAmong_append]
    exact Finds.andThen helement hrest

end

end

end Scene

end DocIndex
