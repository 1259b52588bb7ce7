import DocIndex.Declaration.Signature
import DocIndex.Extract.Callable
import DocIndex.Proofs.Comment.Run
import DocIndex.Proofs.Declaration.Attribute
import DocIndex.Proofs.Text.Words
import DocIndex.Symbol.Basic

/-! # Comments among attributes and modifiers

A comment can stand between any two parts of a declaration. Among the children of the declaration it is of no concern
to attributes and modifiers. In the modifier list, where all that is no attribute is a modifier, every comment is one
too, in its place (`Extract.modifiers_commented`). It never sets an access level, because it starts with a slash. -/

namespace DocIndex

open Text

/-! ### Insertions -/

/-- The list `more` is `items` with `inserted` at some places, every item replaced by one alike. -/
inductive Spliced {α β : Type} (alike : α → β → Prop) : List α → List β → List β → Prop
  | nil : Spliced alike [] [] []
  | keep {item : α} {other : β} {items : List α} {inserted more : List β} (h : alike item other)
      (rest : Spliced alike items inserted more) : Spliced alike (item :: items) inserted (other :: more)
  | insert {new : β} {items : List α} {inserted more : List β} (rest : Spliced alike items inserted more) :
      Spliced alike items (new :: inserted) (new :: more)

namespace Spliced

variable {α β γ : Type} {alike : α → β → Prop} {items : List α} {inserted more : List β}

theorem filterMap (h : Spliced alike items inserted more) {f : α → Option γ} {g : β → Option γ}
    (hread : ∀ {item other}, alike item other → f item = g other) :
    Spliced Eq (items.filterMap f) (inserted.filterMap g) (more.filterMap g) := by
  induction h with
  | nil => exact .nil
  | @keep item other _ _ _ halike _ ih =>
    rw [List.filterMap_cons, List.filterMap_cons, hread halike]
    cases g other with
    | none => exact ih
    | some read => exact .keep rfl ih
  | @insert new _ _ _ _ ih =>
    rw [List.filterMap_cons, List.filterMap_cons]
    cases g new with
    | none => exact ih
    | some read => exact .insert ih

variable {items inserted more : List β}

theorem eq_of_nil (h : Spliced Eq items [] more) : more = items := by
  generalize hnone : ([] : List β) = inserted at h
  induction h with
  | nil => rfl
  | keep heq _ ih => rw [heq, ih hnone]
  | insert _ _ => cases hnone

theorem append (h : Spliced Eq items inserted more) (rest : List β) :
    Spliced Eq (items ++ rest) inserted (more ++ rest) := by
  induction h with
  | nil =>
    induction rest with
    | nil => exact .nil
    | cons item rest ih => exact .keep rfl ih
  | keep heq _ ih => exact .keep heq ih
  | insert _ ih => exact .insert ih

theorem find?_eq (h : Spliced Eq items inserted more) {p : β → Bool} (hinserted : ∀ new ∈ inserted, p new = false) :
    more.find? p = items.find? p := by
  induction h with
  | nil => rfl
  | keep heq _ ih => rw [heq, List.find?_cons, List.find?_cons, ih hinserted]
  | insert _ ih =>
    obtain ⟨hnew, hrest⟩ := List.forall_mem_cons.mp hinserted
    rw [List.find?_cons, hnew]
    exact ih hrest

theorem length_flatMap (h : Spliced Eq items inserted more) (write : β → List γ) :
    (more.flatMap write).length = (items.flatMap write).length + (inserted.flatMap write).length := by
  induction h with
  | nil => rfl
  | keep heq _ ih => simp only [heq, List.flatMap_cons, List.length_append, ih]; omega
  | insert _ ih => simp only [List.flatMap_cons, List.length_append, ih]; omega

end Spliced

/-! ### Comments as modifiers -/

/-- A comment: a named node that starts with a slash. -/
structure Node.IsComment (source : List Char) (node : Node) : Prop where
  kind : node.kind.isComment = true
  named : node.named = true
  start : (node.text source).head? = some '/'

theorem Text.head?_compact {text : List Char} {c : Char} (h : text.head? = some c) (hc : isBlank c = false) :
    (compact text).head? = some c := by
  obtain ⟨rest, rfl⟩ := List.head?_eq_some_iff.mp h
  obtain ⟨piece, pieces, hpieces⟩ := List.exists_cons_of_ne_nil (List.splitOnP_ne_nil isBlank rest)
  have hwords : words (c :: rest) = (c :: piece) :: pieces.filter (!·.isEmpty) := by
    rw [words, List.splitOnP_cons_eq_if_modifyHead, hc, hpieces]
    rfl
  rw [compact, hwords]
  cases pieces.filter (!·.isEmpty) <;> simp

theorem Text.head?_trim {text : List Char} {c : Char} (h : text.head? = some c) (hc : isBlank c = false) :
    (trim text).head? = some c := by
  obtain ⟨rest, rfl⟩ := List.head?_eq_some_iff.mp h
  have htrim := trim_append_cons hc [] rest
  rw [List.nil_append] at htrim
  rw [htrim]
  rfl

/-- A modifier that starts with a slash sets no access level. -/
theorem Modifier.isAccess_parse {text : List Char} (h : text.head? = some '/') : (parse text).isAccess = false := by
  have htrim : (trim text).head? = some '/' := head?_trim h (by decide)
  cases hcut : parenthesized? (trim text) with
  | some parts => rw [parse_of_some hcut]; rfl
  | none =>
    obtain ⟨rest, hrest⟩ := List.head?_eq_some_iff.mp htrim
    rw [parse_of_none hcut, hrest]
    simp [isAccess, plain, accessLevels, String.ext_iff]

theorem Node.IsComment.isAccess_parse {source : List Char} {node : Node} (h : node.IsComment source) :
    (Modifier.parse (node.compactText source)).isAccess = false :=
  Modifier.isAccess_parse (head?_compact h.start (by decide))

/-! ### A declaration with comments -/

/-- The children of the modifier list of a declaration. -/
def Node.markChildren (node : Node) : List Node :=
  match node.childOfKind? [.modifiers] with
  | some list => list.children
  | none => []

/-- Two children that count the same for a list of children: the places in the source may differ. -/
structure Node.SameSort (child other : Node) : Prop where
  kind : other.kind = child.kind
  named : other.named = child.named

/-- Two children that also have the same text, each in its own source. -/
structure Node.SameText (source otherSource : List Char) (child other : Node) : Prop extends child.SameSort other where
  text : other.text otherSource = child.text source

/-- The declaration `more` is `node` with comments inserted among its children and among those of its modifier list,
the latter being `inserted`. Everything after a comment may have moved in the source. -/
structure Node.Commented (source moreSource : List Char) (node more : Node) (inserted : List Node) : Prop where
  kind : more.kind = node.kind
  outside : ∃ comments, (∀ comment ∈ comments, comment.IsComment moreSource) ∧
    Spliced SameSort node.children comments more.children
  inside : Spliced (SameText source moreSource) node.markChildren inserted more.markChildren
  comments : ∀ comment ∈ inserted, comment.IsComment moreSource

namespace Extract

variable (source : List Char)

/-- The attribute that a child of the modifier list stands for. -/
def mark? (child : Node) : Option Attribute :=
  if child.named && child.kind == .attributeUse then Attribute.parse? (child.compactText source) else none

/-- The modifier that a child of the modifier list stands for. -/
def listModifier? (child : Node) : Option Modifier :=
  if child.named && child.kind != .attributeUse then some (Modifier.parse (child.compactText source)) else none

variable {source} {otherSource : List Char} {node more child other : Node} {inserted : List Node}

theorem modifierNodes_eq (node : Node) : modifierNodes node = node.markChildren.filter (·.named) := by
  rw [modifierNodes, Node.markChildren]
  cases node.childOfKind? [.modifiers] <;> rfl

theorem attributes_eq (node : Node) : attributes source node = node.markChildren.filterMap (mark? source) := by
  rw [attributes, attributesOf, modifierNodes_eq, List.filter_filter, List.filterMap_filter]
  congr 1
  funext child
  rw [mark?, Bool.and_comm]

theorem modifiers_eq (node : Node) :
    modifiers source node =
      node.markChildren.filterMap (listModifier? source) ++ node.children.filterMap (bareModifier? node.kind) := by
  rw [modifiers, modifiersOf, modifierNodes_eq, List.filter_filter, ← List.filterMap_eq_map, List.filterMap_filter]
  congr 2
  funext child
  rw [listModifier?, Bool.and_comm]
  rfl

theorem mark?_eq (h : child.SameText source otherSource other) : mark? source child = mark? otherSource other := by
  rw [mark?, mark?, h.kind, h.named, Node.compactText, Node.compactText, h.text]

theorem listModifier?_eq (h : child.SameText source otherSource other) :
    listModifier? source child = listModifier? otherSource other := by
  rw [listModifier?, listModifier?, h.kind, h.named, Node.compactText, Node.compactText, h.text]

theorem bareModifier?_eq (parent : NodeKind) (h : child.SameSort other) :
    bareModifier? parent child = bareModifier? parent other := by
  rw [bareModifier?, bareModifier?, h.kind, h.named]

theorem mark?_comment (h : child.IsComment source) : mark? source child = none := by
  rcases NodeKind.isComment_iff.mp h.kind with hkind | hkind <;> simp [mark?, hkind]

theorem listModifier?_comment (h : child.IsComment source) :
    listModifier? source child = some (Modifier.parse (child.compactText source)) := by
  rcases NodeKind.isComment_iff.mp h.kind with hkind | hkind <;> simp [listModifier?, hkind, h.named]

theorem filterMap_listModifier? {comments : List Node} (h : ∀ comment ∈ comments, comment.IsComment source) :
    comments.filterMap (listModifier? source) =
      comments.map fun comment => Modifier.parse (comment.compactText source) := by
  induction comments with
  | nil => rfl
  | cons comment rest ih =>
    obtain ⟨hcomment, hrest⟩ := List.forall_mem_cons.mp h
    rw [List.filterMap_cons_some (listModifier?_comment hcomment), ih hrest, List.map_cons]

theorem attributes_commented (h : node.Commented source otherSource more inserted) :
    attributes otherSource more = attributes source node := by
  have hnone : inserted.filterMap (mark? otherSource) = [] :=
    List.filterMap_eq_nil_iff.mpr fun comment hcomment => mark?_comment (h.comments comment hcomment)
  have hsplice := h.inside.filterMap mark?_eq
  rw [hnone] at hsplice
  rw [attributes_eq, attributes_eq, hsplice.eq_of_nil]

theorem bareModifiers_commented (h : node.Commented source otherSource more inserted) :
    more.children.filterMap (bareModifier? more.kind) = node.children.filterMap (bareModifier? node.kind) := by
  obtain ⟨comments, hcomments, houtside⟩ := h.outside
  have hnone : comments.filterMap (bareModifier? node.kind) = [] :=
    List.filterMap_eq_nil_iff.mpr fun comment hcomment => by simp [bareModifier?, (hcomments comment hcomment).named]
  have hsplice := houtside.filterMap (bareModifier?_eq node.kind)
  rw [hnone] at hsplice
  rw [h.kind, hsplice.eq_of_nil]

/-- Every comment in the modifier list is a modifier in its place, and no other comment is one. -/
theorem modifiers_commented (h : node.Commented source otherSource more inserted) :
    Spliced Eq (modifiers source node) (inserted.map fun comment => Modifier.parse (comment.compactText otherSource))
      (modifiers otherSource more) := by
  have hsplice := h.inside.filterMap listModifier?_eq
  rw [filterMap_listModifier? h.comments] at hsplice
  rw [modifiers_eq, modifiers_eq, bareModifiers_commented h]
  exact hsplice.append _

theorem accessLevel?_commented (h : node.Commented source otherSource more inserted) :
    Modifier.accessLevel? (modifiers otherSource more) = Modifier.accessLevel? (modifiers source node) := by
  have hfind := (modifiers_commented h).find?_eq (p := Modifier.isAccess) fun m hm => by
    obtain ⟨comment, hcomment, rfl⟩ := List.mem_map.mp hm
    exact (h.comments comment hcomment).isAccess_parse
  rw [Modifier.accessLevel?, hfind, Modifier.accessLevel?]

theorem toList_renderMarks (head : Heading) :
    head.renderMarks.toList =
      head.attributes.flatMap (fun a => a.render.toList ++ [' ']) ++
        head.modifiers.flatMap (fun m => m.render.toList ++ [' ']) := by
  simp [Heading.renderMarks, List.flatMap_map]

/-- Each comment shows in the rendered heading, if only by the space after it. -/
theorem inserted_eq_nil {keyword : String} (h : node.Commented source otherSource more inserted)
    (hrender : (heading otherSource more keyword).renderMarks = (heading source node keyword).renderMarks) :
    inserted = [] := by
  have hlength := congrArg (·.toList.length) hrender
  have hmodifiers := (modifiers_commented h).length_flatMap fun m => m.render.toList ++ [' ']
  simp only [toList_renderMarks, List.length_append, heading, attributes_commented h, hmodifiers] at hlength
  cases inserted with
  | nil => rfl
  | cons comment rest =>
    simp only [List.map_cons, List.flatMap_cons, List.length_append, List.length_singleton] at hlength
    omega

theorem heading_commented {keyword : String} (h : node.Commented source otherSource more inserted)
    (hnone : inserted = []) : heading otherSource more keyword = heading source node keyword := by
  subst hnone
  rw [heading, heading, attributes_commented h, (modifiers_commented h).eq_of_nil]

/-- Comments change neither the attributes nor the access level nor who can see the declaration. They leave the
modifiers and the rendered heading as they are exactly if none of them stands in the modifier list; those that do are
modifiers in their places. -/
theorem heading_commented_iff (h : node.Commented source otherSource more inserted) (keyword : String) :
    attributes otherSource more = attributes source node ∧
      Spliced Eq (modifiers source node) (inserted.map fun comment => Modifier.parse (comment.compactText otherSource))
        (modifiers otherSource more) ∧
      (modifiers otherSource more = modifiers source node ↔ inserted = []) ∧
      ((heading otherSource more keyword).renderMarks = (heading source node keyword).renderMarks ↔ inserted = []) ∧
      Modifier.accessLevel? (modifiers otherSource more) = Modifier.accessLevel? (modifiers source node) ∧
      ∀ body context documentation location,
        Symbol.isPublic ⟨⟨heading otherSource more keyword, body⟩, context, documentation, location⟩ =
          Symbol.isPublic ⟨⟨heading source node keyword, body⟩, context, documentation, location⟩ := by
  have hequal : heading otherSource more keyword = heading source node keyword ↔
      modifiers otherSource more = modifiers source node := by
    simp [heading, attributes_commented h]
  refine ⟨attributes_commented h, modifiers_commented h, ⟨fun hmodifiers => ?_, fun hnone => ?_⟩,
    ⟨inserted_eq_nil h, ?_⟩, accessLevel?_commented h, fun body context documentation location => ?_⟩
  · exact inserted_eq_nil h (congrArg Heading.renderMarks (hequal.mpr hmodifiers))
  · exact hequal.mp (heading_commented h hnone)
  · exact fun hnone => congrArg Heading.renderMarks (heading_commented h hnone)
  · have haccess := accessLevel?_commented h
    simp only [Symbol.isPublic, Declaration.accessLevel?, Declaration.modifiers, heading, haccess]

open Node in
/-- A comment in the modifier list, between an attribute and an access modifier, and one after the list. -/
theorem heading_commented_iff_between :
    let source := "@A public func".toList
    let moreSource := "@A /* open */ public /**/ func".toList
    let list (stop : Nat) (marks : List Node) := Node.mk (bare .modifiers 0 stop).info marks
    let comment := bare .blockComment 3 13
    let node := Node.mk (bare .functionDeclaration 0 14).info
      [list 9 [bare .attributeUse 0 2, bare (.other "visibility_modifier") 3 9], bare .funcKeyword 10 14]
    let more := Node.mk (bare .functionDeclaration 0 30).info
      [list 20 [bare .attributeUse 0 2, comment, bare (.other "visibility_modifier") 14 20],
        bare .blockComment 21 25, bare .funcKeyword 26 30]
    node.Commented source moreSource more [comment] ∧
      (heading moreSource more "func").renderMarks ≠ (heading source node "func").renderMarks ∧
      Modifier.accessLevel? (modifiers moreSource more) = some "public" := by
  intro source moreSource list comment node more
  have hcomment : ∀ start stop, (slice moreSource start stop).head? = some '/' →
      (bare .blockComment start stop).IsComment moreSource := fun start stop h => ⟨rfl, rfl, h⟩
  have h : node.Commented source moreSource more [comment] :=
    { kind := rfl
      outside := ⟨[bare .blockComment 21 25], by simpa using hcomment 21 25 (by decide),
        .keep ⟨rfl, rfl⟩ (.insert (.keep ⟨rfl, rfl⟩ .nil))⟩
      inside := .keep ⟨⟨rfl, rfl⟩, by decide⟩ (.insert (.keep ⟨⟨rfl, rfl⟩, by decide⟩ .nil))
      comments := by simpa using hcomment 3 13 (by decide) }
  obtain ⟨-, -, -, hrender, haccess, -⟩ := heading_commented_iff h "func"
  exact ⟨h, fun heq => List.cons_ne_nil _ _ (hrender.mp heq), haccess.trans (by decide +kernel)⟩

open Node in
/-- A comment in the modifier list is rendered as a modifier. -/
theorem heading_comment_between :
    let source := "@inlinable public func f() \x7b\x7d".toList
    let moreSource := "@inlinable /* c */ public func f() \x7b\x7d".toList
    let list (stop : Nat) (marks : List Node) := Node.mk (bare .modifiers 0 stop).info marks
    let comment := bare .blockComment 11 18
    let node := Node.mk (bare .functionDeclaration 0 29).info
      [list 17 [bare .attributeUse 0 10, bare (.other "visibility_modifier") 11 17], bare .funcKeyword 18 22]
    let more := Node.mk (bare .functionDeclaration 0 37).info
      [list 25 [bare .attributeUse 0 10, comment, bare (.other "visibility_modifier") 19 25], bare .funcKeyword 26 30]
    node.Commented source moreSource more [comment] ∧
      modifiers source node = [.plain "public"] ∧ modifiers moreSource more = [.plain "/* c */", .plain "public"] ∧
      (heading source node "func").render = "@inlinable public func" ∧
      (heading moreSource more "func").render = "@inlinable /* c */ public func" := by
  intro source moreSource list comment node more
  refine ⟨⟨rfl, ⟨[], List.forall_mem_nil _, .keep ⟨rfl, rfl⟩ (.keep ⟨rfl, rfl⟩ .nil)⟩, ?_, ?_⟩, by decide +kernel,
    by decide +kernel, by decide +kernel, by decide +kernel⟩
  · exact .keep ⟨⟨rfl, rfl⟩, by decide⟩ (.insert (.keep ⟨⟨rfl, rfl⟩, by decide⟩ .nil))
  · exact List.forall_mem_singleton.mpr ⟨rfl, rfl, by decide⟩

end Extract

end DocIndex
