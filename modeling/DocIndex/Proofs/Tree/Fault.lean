import DocIndex.Proofs.Tree.Descent
import DocIndex.Tree.Fault

/-! # The first fault of a tree

The search for a fault goes down into the first child that has an error and never comes back. If errors show in all
ancestors of a fault (`Node.Flagged`), then no fault stands before the node at which the search ends, in document
order (`Node.Flagged.exists_firstFault?`). If moreover no error is hidden (`Node.Shown`), then it ends at the first
fault of the tree. -/

namespace DocIndex

namespace Node

/-- Every node of a tree in document order. -/
def preorder (root : Node) : List Node :=
  root.places.map (·.node)

theorem map_node_placesAfter (preceding : List Node) (node : Node) :
    (node.placesAfter preceding).map (·.node) = node.preorder := by
  simp [preorder, places, placesAfter_eq]

theorem map_node_placesOfSiblings (preceding nodes : List Node) :
    (placesOfSiblings preceding nodes).map (·.node) = nodes.flatMap preorder := by
  induction nodes generalizing preceding with
  | nil => rfl
  | cons node rest ih =>
    rw [placesOfSiblings, List.map_append, map_node_placesAfter, ih, List.flatMap_cons]

theorem preorder_eq (root : Node) : root.preorder = root :: root.children.flatMap preorder := by
  obtain ⟨info, children⟩ := root
  rw [preorder, places, placesAfter, List.map_cons, map_node_placesOfSiblings]
  rfl

theorem mem_preorder_self (root : Node) : root ∈ root.preorder := by
  rw [preorder_eq]
  exact List.mem_cons_self

theorem mem_preorder_of_child {root child node : Node} (hchild : child ∈ root.children) (h : node ∈ child.preorder) :
    node ∈ root.preorder := by
  rw [preorder_eq]
  exact List.mem_cons_of_mem _ (List.mem_flatMap.mpr ⟨child, hchild, h⟩)

/-- Every fault has an error, and so has the parent of every node with one. -/
structure Flagged (root : Node) : Prop where
  faults : ∀ node ∈ root.preorder, node.isFault = true → node.hasError = true
  parents : ∀ node ∈ root.preorder, ∀ child ∈ node.children, child.hasError = true → node.hasError = true

/-- Every node with an error is a fault or has a child with an error. -/
def Shown (root : Node) : Prop :=
  ∀ node ∈ root.preorder, node.hasError = true → node.isFault = true ∨ ∃ child ∈ node.children, child.hasError = true

instance (root : Node) : Decidable root.Flagged :=
  decidable_of_iff
    ((∀ node ∈ root.preorder, node.isFault = true → node.hasError = true) ∧
      ∀ node ∈ root.preorder, ∀ child ∈ node.children, child.hasError = true → node.hasError = true)
    ⟨fun h => ⟨h.1, h.2⟩, fun h => ⟨h.faults, h.parents⟩⟩

instance (root : Node) : Decidable root.Shown :=
  inferInstanceAs (Decidable (∀ node ∈ root.preorder, _))

variable {root child node : Node}

theorem Flagged.of_child (h : root.Flagged) (hchild : child ∈ root.children) : child.Flagged where
  faults node hnode := h.faults node (mem_preorder_of_child hchild hnode)
  parents node hnode := h.parents node (mem_preorder_of_child hchild hnode)

theorem Shown.of_child (h : root.Shown) (hchild : child ∈ root.children) : child.Shown :=
  fun node hnode => h node (mem_preorder_of_child hchild hnode)

theorem Flagged.isFault_eq_false (h : root.Flagged) (hroot : root.hasError = false) :
    ∀ node ∈ root.preorder, node.isFault = false := by
  induction root using Node.induction with
  | node root ih =>
    intro node hnode
    rw [preorder_eq, List.mem_cons, List.mem_flatMap] at hnode
    rcases hnode with rfl | ⟨child, hchild, hnode⟩
    · refine Bool.eq_false_iff.mpr fun hfault => ?_
      rw [h.faults node node.mem_preorder_self hfault] at hroot
      cases hroot
    · refine ih child hchild (h.of_child hchild) (Bool.eq_false_iff.mpr fun herror => ?_) node hnode
      rw [h.parents root root.mem_preorder_self child hchild herror] at hroot
      cases hroot

/-! ### The search -/

theorem firstFaultAmong?_eq (nodes : List Node) : firstFaultAmong? nodes = nodes.findSome? firstFault? := by
  induction nodes with
  | nil => rw [firstFaultAmong?, List.findSome?_nil]
  | cons node rest ih =>
    rw [firstFaultAmong?, ih, List.findSome?_cons]
    cases node.firstFault? <;> rfl

theorem firstFault?_eq (node : Node) :
    node.firstFault? =
      if node.hasError then
        if node.isFault then some node else some ((node.children.findSome? firstFault?).getD node)
      else none := by
  obtain ⟨info, children⟩ := node
  rw [firstFault?, firstFaultAmong?_eq]
  cases herror : info.hasError <;> simp [hasError, isFault, Node.info, Node.children, herror]

theorem firstFault?_eq_none_iff : node.firstFault? = none ↔ node.hasError = false := by
  rw [firstFault?_eq]
  repeat' split
  all_goals simp_all

/-- The search ends at a node with an error, and no fault comes before it. -/
theorem Flagged.exists_firstFault? (h : root.Flagged) (hroot : root.hasError = true) :
    ∃ node before after, root.firstFault? = some node ∧ root.preorder = before ++ node :: after ∧
      node.hasError = true ∧ (∀ other ∈ before, other.isFault = false) ∧ (root.Shown → node.isFault = true) := by
  induction root using Node.induction with
  | node root ih =>
    rw [firstFault?_eq, if_pos hroot]
    cases hfault : root.isFault with
    | true => exact ⟨root, [], _, rfl, root.preorder_eq, hroot, by simp, fun _ => hfault⟩
    | false =>
      cases hfound : root.children.findSome? firstFault? with
      | none =>
        refine ⟨root, [], _, rfl, root.preorder_eq, hroot, by simp, fun hshown => ?_⟩
        -- The error is hidden: no child has one.
        rcases hshown root root.mem_preorder_self hroot with hself | ⟨child, hchild, herror⟩
        · exact hself
        · have hnone := List.findSome?_eq_none_iff.mp hfound child hchild
          rw [firstFault?_eq_none_iff.mp hnone] at herror
          cases herror
      | some found =>
        obtain ⟨first, child, last, hchildren, hchildFound, hfirst⟩ := List.findSome?_eq_some_iff.mp hfound
        have hmem : ∀ node ∈ first ++ [child], node ∈ root.children := fun node hnode => by
          rw [hchildren, List.append_cons]
          exact List.mem_append_left _ hnode
        have hchild : child ∈ root.children := hmem child (by simp)
        have herror : child.hasError = true := by
          refine eq_true_of_ne_false fun hno => ?_
          rw [firstFault?_eq_none_iff.mpr hno] at hchildFound
          cases hchildFound
        obtain ⟨node, before, after, hnode, horder, hnodeError, hbefore, hshown⟩ :=
          ih child hchild (h.of_child hchild) herror
        obtain rfl := Option.some.inj (hchildFound.symm.trans hnode)
        refine ⟨found, root :: (first.flatMap preorder ++ before), after ++ last.flatMap preorder, rfl, ?_, hnodeError,
          ?_, fun hroot => hshown (hroot.of_child hchild)⟩
        · rw [preorder_eq, hchildren, List.flatMap_append, List.flatMap_cons, horder]
          simp
        · intro other hother
          simp only [List.mem_cons, List.mem_append, List.mem_flatMap] at hother
          rcases hother with rfl | ⟨sibling, hsibling, hother⟩ | hother
          · exact hfault
          · have hmember := hmem sibling (List.mem_append_left _ hsibling)
            exact (h.of_child hmember).isFault_eq_false (firstFault?_eq_none_iff.mp (hfirst sibling hsibling)) other hother
          · exact hbefore other hother

end Node

/-! ### Documents -/

namespace Document

variable {document : Document}

theorem accept_of_hasError_eq_false (h : document.tree.hasError = false) :
    document.accept false = .ok document.tree := by
  simp [accept, Node.firstFault?_eq_none_iff.mpr h]

theorem accept_of_firstFault? {node : Node} (h : document.tree.firstFault? = some node) :
    document.accept false = .error (.ofOffset document.source node.start) := by
  simp [accept, h]

theorem tree_eq_of_accept {allowFaults : Bool} {tree : Node} (h : document.accept allowFaults = .ok tree) :
    tree = document.tree := by
  unfold accept at h
  split at h
  · cases h; rfl
  · split at h <;> cases h; rfl

/-- A document is refused if faults are not allowed and its tree has an error, and else its tree is taken as it is. The
refusal gives the position of a node with an error and no fault before it, which is the first fault of the tree if no
error is hidden. -/
theorem accept_flagged (document : Document) (h : document.tree.Flagged) :
    ((∃ position, document.accept false = .error position) ↔ document.tree.hasError = true) ∧
      document.accept true = .ok document.tree ∧
      (document.tree.hasError = false → document.accept false = .ok document.tree) ∧
      ∀ position, document.accept false = .error position →
        ∃ node before after, document.tree.firstFault? = some node ∧
          position = .ofOffset document.source node.start ∧
          document.tree.preorder = before ++ node :: after ∧
          node.hasError = true ∧ (∀ other ∈ before, other.isFault = false) ∧
          (document.tree.Shown → document.tree.preorder.find? (·.isFault) = some node) := by
  have herror : ∀ position, document.accept false = .error position → document.tree.hasError = true := by
    intro position hposition
    refine eq_true_of_ne_false fun hno => ?_
    rw [accept_of_hasError_eq_false hno] at hposition
    cases hposition
  refine ⟨⟨fun ⟨position, hposition⟩ => herror position hposition, fun hroot => ?_⟩, rfl, accept_of_hasError_eq_false,
    fun position hposition => ?_⟩
  · obtain ⟨node, -, -, hfound, -⟩ := h.exists_firstFault? hroot
    exact ⟨_, accept_of_firstFault? hfound⟩
  · obtain ⟨node, before, after, hfound, horder, hnode, hbefore, hshown⟩ := h.exists_firstFault? (herror position hposition)
    rw [accept_of_firstFault? hfound] at hposition
    refine ⟨node, before, after, hfound, (Except.error.inj hposition).symm, horder, hnode, hbefore, fun hroot => ?_⟩
    rw [horder, List.find?_append, List.find?_eq_none.mpr fun other hother => by simp [hbefore other hother]]
    simp [hshown hroot]

open Node in
/-- A pattern that was assumed in the second of three declarations, before a third that could not be parsed. -/
theorem accept_flagged_missing :
    let missing := Node.mk { (bare .pattern 9 9).info with isMissing := true, hasError := true } []
    let broken := Node.mk { (bare .propertyDeclaration 6 10).info with hasError := true } [bare .varKeyword 6 9, missing]
    let wrong := Node.mk { (bare .propertyDeclaration 11 12).info with isError := true, hasError := true } []
    let tree :=
      Node.mk { (bare .functionBody 0 12).info with hasError := true } [bare .propertyDeclaration 0 5, broken, wrong]
    let document : Document := ⟨"let a\nvar \n)".toList, tree⟩
    tree.Flagged ∧ tree.Shown ∧ document.accept false = .error ⟨2, 4⟩ ∧
      tree.preorder.find? (·.isFault) = some missing := by
  intro missing broken wrong tree document
  have hflagged : tree.Flagged := by decide +kernel
  have hshown : tree.Shown := by decide +kernel
  have hrefused : document.accept false = .error ⟨2, 4⟩ := rfl
  obtain ⟨node, before, after, hfound, -, -, -, -, hfirst⟩ := (accept_flagged document hflagged).2.2.2 _ hrefused
  have hnode : tree.firstFault? = some missing := rfl
  obtain rfl := Option.some.inj (hfound.symm.trans hnode)
  exact ⟨hflagged, hshown, hrefused, hfirst hshown⟩

end Document

end DocIndex
