import DocIndex.Proofs.Index.Visit

/-! # What a walk finds in a tree

The symbols and imports of a tree, without the walk: the reachable nodes are taken in document order, and
each gives what the extractors yield for it. A node's documentation and location are its own, and its
context is read off the way down to it. -/

namespace DocIndex

namespace Scene

variable (scene : Scene) (root : Node)

theorem filterMap_symbol?_entriesIn (context : List Frame) (place : Place) :
    (scene.entriesIn context place).filterMap (·.symbol?) = scene.symbolsIn context place := by
  rw [entriesIn, List.filterMap_append, Entry.filterMap_symbol?_map_symbol]
  cases Extract.import? scene.source place.node <;> simp [Entry.symbol?]

theorem filterMap_import?_entriesIn (context : List Frame) (place : Place) :
    (scene.entriesIn context place).filterMap (·.import?) =
      (Extract.import? scene.source place.node).toList := by
  rw [entriesIn, List.filterMap_append, Entry.filterMap_import?_map_symbol]
  cases Extract.import? scene.source place.node <;> simp [Entry.import?]

theorem walk_eq : scene.walk root = .ok (Walk.add (scene.entriesBelow [] root) {}) := by
  have hfinds := scene.visitChildren_finds root [] {} rfl
  simp [walk, walkFrom, hfinds, Walk.add]

theorem filterMap_symbol?_entriesBelow (context : List Frame) :
    (scene.entriesBelow context root).filterMap (·.symbol?) =
      (root.descents.filter (·.Reachable)).flatMap fun descent =>
        scene.symbolsIn (context ++ scene.contextOf descent) descent.last.toPlace := by
  simp only [entriesBelow, List.filterMap_flatMap, filterMap_symbol?_entriesIn]

theorem filterMap_import?_entriesBelow (context : List Frame) :
    (scene.entriesBelow context root).filterMap (·.import?) =
      (root.descents.filter (·.Reachable)).flatMap fun descent =>
        (Extract.import? scene.source descent.last.node).toList := by
  simp only [entriesBelow, List.filterMap_flatMap, filterMap_import?_entriesIn]

end Scene

end DocIndex
