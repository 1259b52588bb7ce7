import DocIndex.Proofs.Comment.Run
import DocIndex.Proofs.Condition.Map
import DocIndex.Proofs.Condition.Together
import DocIndex.Proofs.Tree.Descent

/-! # Comments and compilation branches

The comments above a node are found among its siblings as they stand, before any directive is looked at, and
yet they are in the same clause as the node: in the elements of the parent they come right before it, in the
same list. No comment is above two nodes (`Comment.leading_within`). Children are told apart by their
positions, since two of them can be equal. -/

namespace DocIndex

namespace Node

/-- A child with the siblings before it. -/
def placeAt (parent : Node) (child : Fin parent.children.length) : Place :=
  ⟨(parent.children.take child).reverse, parent.children.get child⟩

def tokenAt (source : List Char) (parent : Node) (child : Fin parent.children.length) :
    Option (Token (Fin parent.children.length)) :=
  (parent.children.get child).token? source child

/-- The elements of a node, with the positions of its children in place of the children. -/
def positions (source : List Char) (parent : Node) : List (Element (Fin parent.children.length)) :=
  group ((List.finRange parent.children.length).filterMap (parent.tokenAt source))

theorem map_get_finRange (nodes : List Node) : (List.finRange nodes.length).map nodes.get = nodes := by
  apply List.ext_getElem <;> simp

theorem mapElements_positions (source : List Char) (parent : Node) :
    mapElements parent.children.get (parent.positions source) = parent.elements source := by
  have hchildren := map_get_finRange parent.children
  rw [positions, ← group_map, elements, List.map_filterMap]
  simp only [tokenAt, map_token?]
  conv => rhs; rw [← hchildren, List.filterMap_map]
  rfl

theorem filterMap_tokenAt {source : List Char} {parent : Node} {positions : List (Fin parent.children.length)}
    (h : ∀ child ∈ positions, (parent.children.get child).kind ≠ .directive) :
    positions.filterMap (parent.tokenAt source) = positions.map .item := by
  induction positions with
  | nil => rfl
  | cons child rest ih =>
    obtain ⟨hchild, hrest⟩ := List.forall_mem_cons.mp h
    have htoken : parent.tokenAt source child = some (.item child) := if_neg hchild
    rw [List.filterMap_cons_some htoken, ih hrest, List.map_cons]

theorem Reads.token?_ifTrue {source : List Char} {node : Node} {condition : String}
    (h : node.Reads source (.ifTrue condition)) {α : Type} (value : α) :
    node.token? source value = some (.ifTrue value condition) := by
  simp [token?, h.kind, h.parse]

/-- What a child makes of itself in the elements of its parent: an element of its own if it is no directive,
a block if it opens one, and nothing otherwise. -/
inductive Makes {α : Type} (source : List Char) (node : Node) (value : α) : List (Element α) → Prop
  | item (plain : node.kind ≠ .directive) : Makes source node value [.item value]
  | block {condition : String} (opening : node.Reads source (.ifTrue condition)) (clauses : List (Clause α)) :
      Makes source node value [.block value clauses]
  | nothing (kind : node.kind = .directive) (closed : ∀ condition, ¬node.Reads source (.ifTrue condition)) :
      Makes source node value []

end Node

namespace Comment

variable {source : List Char} {parent : Node} {child other comment : Fin parent.children.length}

/-- The comments above a node, the nearest first. -/
def nearest (source : List Char) (place : Place) : List Node :=
  run source (Text.row source place.node.start) place.preceding

/-- The positions of the comments above a child, in document order. -/
def leading (source : List Char) (parent : Node) (child : Fin parent.children.length) :
    List (Fin parent.children.length) :=
  ((List.finRange parent.children.length).take child).drop
    (child - (nearest source (parent.placeAt child)).length)

theorem isComment_of_mem_run {node : Node} {row : Nat} {preceding : List Node}
    (h : node ∈ run source row preceding) : node.kind.isComment = true := by
  induction preceding generalizing row with
  | nil => exact absurd h List.not_mem_nil
  | cons sibling rest ih =>
    rw [run] at h
    split at h
    next hbelongs =>
      rcases List.mem_cons.mp h with rfl | h
      · simp only [belongsTo, Bool.and_eq_true] at hbelongs
        exact hbelongs.1.1.1
      · exact ih h
    next => exact absurd h List.not_mem_nil

theorem map_get_leading (source : List Char) (parent : Node) (child : Fin parent.children.length) :
    (leading source parent child).map parent.children.get =
      (nearest source (parent.placeAt child)).reverse := by
  obtain ⟨first, hleads, -, hrun⟩ :=
    run_eq source (parent.placeAt child).preceding (parent.placeAt child).node
  have hsiblings : (parent.placeAt child).preceding.reverse = parent.children.take child := List.reverse_reverse _
  have hlength : (parent.children.take child).length = child := by simp
  have hfirst : first ≤ child := by
    rw [← hlength, ← hsiblings]
    exact hleads.1
  rw [hsiblings] at hrun
  have hcount : child - (nearest source (parent.placeAt child)).length = first := by
    rw [nearest, hrun, List.length_reverse, List.length_drop, hlength]
    omega
  rw [leading, hcount, nearest, hrun, List.map_drop, List.map_take, Node.map_get_finRange, List.reverse_reverse]

theorem isComment_of_mem_leading (h : comment ∈ leading source parent child) :
    (parent.children.get comment).kind.isComment = true := by
  have hmem := List.mem_map_of_mem (f := parent.children.get) h
  rw [map_get_leading, List.mem_reverse] at hmem
  exact isComment_of_mem_run hmem

theorem mem_leading_iff : comment ∈ leading source parent child ↔
    child - (nearest source (parent.placeAt child)).length ≤ comment.val ∧ comment.val < child.val := by
  have hchild := child.isLt
  rw [leading, List.mem_iff_getElem]
  simp only [List.getElem_drop, List.getElem_take, List.getElem_finRange, List.length_drop, List.length_take,
    List.length_finRange, Fin.ext_iff, Fin.val_cast]
  constructor
  · rintro ⟨i, hi, heq⟩
    omega
  · rintro ⟨hle, hlt⟩
    exact ⟨comment - (child - (nearest source (parent.placeAt child)).length), by omega, by omega⟩

/-- The comments above a child fill the space down to it, so no other node stands between them. -/
theorem eq_of_mem_leading (hchild : (parent.children.get child).kind.isComment = false)
    (hother : (parent.children.get other).kind.isComment = false) (h : comment ∈ leading source parent child)
    (hshared : comment ∈ leading source parent other) : child = other := by
  have hpast {first second : Fin parent.children.length}
      (hfirst : (parent.children.get first).kind.isComment = false)
      (hbefore : comment ∈ leading source parent first) (hafter : comment ∈ leading source parent second) :
      second.val ≤ first.val := by
    refine Nat.le_of_not_lt fun hlt => ?_
    rw [mem_leading_iff] at hbefore hafter
    have hmem : first ∈ leading source parent second := mem_leading_iff.mpr ⟨by omega, hlt⟩
    rw [isComment_of_mem_leading hmem] at hfirst
    exact nomatch hfirst
  exact Fin.ext (Nat.le_antisymm (hpast hother hshared h) (hpast hchild h hshared))

theorem finRange_eq (source : List Char) (parent : Node) (child : Fin parent.children.length) :
    ∃ before, List.finRange parent.children.length = before ++ leading source parent child ++
      child :: (List.finRange parent.children.length).drop (child + 1) := by
  have hlt : child.val < (List.finRange parent.children.length).length := by simp
  refine ⟨((List.finRange parent.children.length).take child).take
    (child - (nearest source (parent.placeAt child)).length), ?_⟩
  rw [leading, List.take_append_drop]
  conv => lhs; rw [← List.take_append_drop child.val (List.finRange parent.children.length)]
  rw [List.drop_eq_getElem_cons hlt]
  simp

theorem above?_placeAt (source : List Char) (parent : Node) (child : Fin parent.children.length) :
    above? source (parent.placeAt child) =
      if leading source parent child = [] then none
      else some (String.ofList (['\n'].intercalate ((leading source parent child).map fun comment =>
        (parent.children.get comment).text source))) := by
  have hnodes := map_get_leading source parent child
  have htexts : (leading source parent child).map (fun comment => (parent.children.get comment).text source) =
      (nearest source (parent.placeAt child)).reverse.map (·.text source) := by
    rw [← hnodes, List.map_map]
    rfl
  rw [above?, htexts, ← nearest]
  cases hnearest : nearest source (parent.placeAt child) with
  | nil =>
    rw [hnearest] at hnodes
    rw [if_pos (List.map_eq_nil_iff.mp hnodes)]
  | cons comment rest =>
    have hsome : leading source parent child ≠ [] := fun hnil => by
      rw [hnil, hnearest] at hnodes
      simp at hnodes
    rw [if_neg hsome]

/-- The comments above a child stand right before what the child makes, in the same list of elements. -/
theorem together_leading (source : List Char) (parent : Node) (child : Fin parent.children.length) :
    ∃ made, (parent.children.get child).Makes source child made ∧
      Together ((leading source parent child).map .item ++ made) (parent.positions source) := by
  obtain ⟨before, hsplit⟩ := finRange_eq source parent child
  have hcomments : (leading source parent child).filterMap (parent.tokenAt source) =
      (leading source parent child).map .item := by
    refine Node.filterMap_tokenAt fun comment hcomment hkind => ?_
    have := isComment_of_mem_leading hcomment
    rw [hkind] at this
    exact nomatch this
  rw [Node.positions, hsplit, List.filterMap_append, List.filterMap_append, hcomments]
  by_cases hkind : (parent.children.get child).kind = .directive
  · by_cases hopens : ∃ condition, (parent.children.get child).Reads source (.ifTrue condition)
    · obtain ⟨condition, hreads⟩ := hopens
      have htoken : parent.tokenAt source child = some (.ifTrue child condition) := hreads.token?_ifTrue child
      rw [List.filterMap_cons_some htoken]
      obtain ⟨clauses, htogether⟩ := group_together_block _ (leading source parent child) child condition _
      exact ⟨_, .block hreads clauses, htogether⟩
    · refine ⟨[], .nothing hkind fun condition h => hopens ⟨condition, h⟩, ?_⟩
      rw [List.append_nil]
      exact group_together _ _ _
  · have htoken : parent.tokenAt source child = some (.item child) := if_neg hkind
    have htogether := group_together (before.filterMap (parent.tokenAt source))
      (leading source parent child ++ [child])
      (((List.finRange parent.children.length).drop (child + 1)).filterMap (parent.tokenAt source))
    rw [List.map_append, List.map_append, ← List.append_assoc, List.append_assoc _ (List.map _ [child])] at htogether
    rw [List.filterMap_cons_some htoken]
    exact ⟨_, .item hkind, htogether⟩

/-- The comments that document a child come right before it in the same list of elements, at the top level or
in one clause, and no comment documents two children that are no comments themselves. -/
theorem leading_within (source : List Char) (parent : Node) :
    mapElements parent.children.get (parent.positions source) = parent.elements source ∧
      (∀ child : Fin parent.children.length,
        above? source (parent.placeAt child) =
          (if leading source parent child = [] then none
          else some (String.ofList (['\n'].intercalate ((leading source parent child).map fun comment =>
            (parent.children.get comment).text source)))) ∧
        ∃ made, (parent.children.get child).Makes source child made ∧
          Together ((leading source parent child).map .item ++ made) (parent.positions source)) ∧
      ∀ child other : Fin parent.children.length, (parent.children.get child).kind.isComment = false →
        (parent.children.get other).kind.isComment = false → child ≠ other →
          ∀ comment ∈ leading source parent child, comment ∉ leading source parent other := by
  refine ⟨parent.mapElements_positions source, fun child => ⟨?_, together_leading source parent child⟩, ?_⟩
  · exact above?_placeAt source parent child
  · intro child other hchild hother hne comment hmem hshared
    exact hne (eq_of_mem_leading hchild hother hmem hshared)

end Comment

end DocIndex
