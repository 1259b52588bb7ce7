import DocIndex.Extract.Reading
import DocIndex.Proofs.Declaration.SingleLine
import DocIndex.Proofs.Tree.Fault

/-! # Signatures in one line

Names are taken from the source as they stand, and everything else is compacted or cut out of compacted text. So if no
name has a blank in it (`Node.NamesVisible`), all texts of a declaration are flat (`Extract.allFlat_declarations`), and
its signature stands in one line, however the source is laid out (`Extract.lines_signature`). -/

namespace DocIndex

open Text

namespace Node

/-- No name in the tree has a blank in it: no identifier, and no child that gives an enumeration case or a precedence
group its name. -/
structure NamesVisible (source : List Char) (root : Node) : Prop where
  identifiers : ∀ node ∈ root.preorder, node.kind = .simpleIdentifier → IsVisible (node.text source)
  caseNames : ∀ node ∈ root.preorder, node.kind = .enumEntry →
    ∀ child ∈ node.children, child.role = some .name → IsVisible (child.text source)
  groupNames : ∀ node ∈ root.preorder, node.kind = .precedenceGroupDeclaration →
    ∀ child ∈ node.childWithRole? .name, IsVisible (child.text source)

instance (source : List Char) (root : Node) : Decidable (root.NamesVisible source) :=
  decidable_of_iff
    ((∀ node ∈ root.preorder, node.kind = .simpleIdentifier → IsVisible (node.text source)) ∧
      (∀ node ∈ root.preorder, node.kind = .enumEntry →
        ∀ child ∈ node.children, child.role = some .name → IsVisible (child.text source)) ∧
      ∀ node ∈ root.preorder, node.kind = .precedenceGroupDeclaration →
        ∀ child ∈ node.childWithRole? .name, IsVisible (child.text source))
    ⟨fun h => ⟨h.1, h.2.1, h.2.2⟩, fun h => ⟨h.identifiers, h.caseNames, h.groupNames⟩⟩

variable {source : List Char} {root node child : Node}

theorem mem_preorder_trans {other : Node} (hnode : node ∈ root.preorder) (hother : other ∈ node.preorder) :
    other ∈ root.preorder := by
  induction root using Node.induction with
  | node root ih =>
    rw [preorder_eq, List.mem_cons, List.mem_flatMap] at hnode
    rcases hnode with rfl | ⟨child, hchild, hnode⟩
    · exact hother
    · exact mem_preorder_of_child hchild (ih child hchild hnode)

theorem NamesVisible.of_mem (h : root.NamesVisible source) (hnode : node ∈ root.preorder) :
    node.NamesVisible source where
  identifiers other hother := h.identifiers other (mem_preorder_trans hnode hother)
  caseNames other hother := h.caseNames other (mem_preorder_trans hnode hother)
  groupNames other hother := h.groupNames other (mem_preorder_trans hnode hother)

theorem NamesVisible.of_child (h : node.NamesVisible source) (hchild : child ∈ node.children) :
    child.NamesVisible source :=
  h.of_mem (mem_preorder_of_child hchild child.mem_preorder_self)

theorem NamesVisible.isFlat_string (h : node.NamesVisible source) (hkind : node.kind = .simpleIdentifier) :
    IsFlat (node.string source).toList := by
  rw [string, String.toList_ofList]
  exact (h.identifiers node node.mem_preorder_self hkind).isFlat

@[simp] theorem isFlat_compactText (source : List Char) (node : Node) : IsFlat (node.compactText source) :=
  isFlat_compact _

@[simp] theorem isFlat_compactString (source : List Char) (node : Node) :
    IsFlat (node.compactString source).toList := by
  simp [compactString]

theorem mem_of_childOfKind? {kinds : List NodeKind} (h : node.childOfKind? kinds = some child) :
    child ∈ node.children ∧ child.kind ∈ kinds :=
  ⟨List.mem_of_find?_eq_some h, by simpa using List.find?_some h⟩

end Node

namespace Extract

variable {source : List Char} {node : Node}

/-! ### Common parts -/

theorem allFlat_compactString (source : List Char) (node : Option Node) :
    AllFlat (node.map (·.compactString source)).toList := by
  cases node <;> simp

theorem forall_mem_modifyHead {α : Type} {P : α → Prop} {change : α → α} {items : List α} (h : ∀ item ∈ items, P item)
    (hchange : ∀ item, P item → P (change item)) : ∀ item ∈ items.modifyHead change, P item := by
  cases items with
  | nil => exact h
  | cons first rest =>
    obtain ⟨hfirst, hrest⟩ := List.forall_mem_cons.mp h
    exact List.forall_mem_cons.mpr ⟨hchange first hfirst, hrest⟩

theorem allFlat_bareModifier? {parent : NodeKind} {child : Node} {m : Modifier}
    (h : bareModifier? parent child = some m) : AllFlat m.texts := by
  rw [bareModifier?] at h
  split at h
  next => cases h
  split at h
  next =>
    obtain rfl := Option.some.inj h
    simp [Modifier.texts, Modifier.plain, isBlank]
  split at h
  next =>
    obtain rfl := Option.some.inj h
    simp [Modifier.texts, Modifier.plain, isBlank]
  next => cases h

theorem allFlat_heading {keyword : String} (h : IsFlat keyword.toList) :
    AllFlat (heading source node keyword).texts := by
  simp only [Heading.texts, heading, allFlat_append, allFlat_flatMap]
  refine ⟨⟨fun a ha => ?_, fun m hm => ?_⟩, by simpa using h⟩
  · obtain ⟨mark, -, ha⟩ := List.mem_filterMap.mp ha
    exact Attribute.allFlat_parse? (mark.isFlat_compactText source) ha
  · rcases List.mem_append.mp hm with hm | hm
    · obtain ⟨mark, -, rfl⟩ := List.mem_map.mp hm
      exact Modifier.allFlat_parse (mark.isFlat_compactText source)
    · obtain ⟨child, -, hm⟩ := List.mem_filterMap.mp hm
      exact allFlat_bareModifier? hm

theorem isFlat_of_typeName? {name : String} (h : typeName? source node = some name) : IsFlat name.toList := by
  rw [typeName?] at h
  split at h
  next child _ => exact Option.some.inj h ▸ child.isFlat_compactString source
  next =>
    obtain ⟨child, -, rfl⟩ := Option.map_eq_some_iff.mp h
    exact child.isFlat_compactString source

theorem allFlat_generics : AllFlat ((generics source node).flatMap (·.texts)) := by
  rw [allFlat_flatMap, generics]
  split
  next list _ =>
    intro p hp
    obtain ⟨child, -, hp⟩ := List.mem_filterMap.mp hp
    exact GenericParameter.allFlat_parse? (child.isFlat_compactText source) hp
  next => exact List.forall_mem_nil _

theorem allFlat_inheritance : AllFlat (inheritance source node) := by
  rw [inheritance]
  split
  next =>
    split
    next clause _ =>
      rw [allFlat_map]
      intro type htype
      simpa using ((clause.isFlat_compactText source).dropWhile _).of_mem_splitTop htype
    next => exact allFlat_nil
  next => simp

theorem allFlat_requirements : AllFlat ((requirements source node).flatMap (·.texts)) := by
  rw [allFlat_flatMap]
  intro r hr
  obtain ⟨constraints, -, hr⟩ := List.mem_flatMap.mp hr
  exact allFlat_flatMap.mp (Requirement.allFlat_parseAll (constraints.isFlat_compactText source)) r hr

/-! ### Types -/

theorem isFlat_of_nominalSort? {keyword : String} {sort : NominalSort} (h : nominalSort? keyword = some sort) :
    IsFlat keyword.toList := by
  unfold nominalSort? at h
  split at h
  next => decide
  next => decide
  next => decide
  next => cases h

theorem allFlat_nominal? {d : Declaration} (h : nominal? source node = some d) : AllFlat d.texts := by
  rw [nominal?] at h
  obtain ⟨-, h⟩ := Option.ite_none_left_eq_some.mp h
  obtain ⟨keyword, -, h⟩ := Option.bind_eq_some_iff.mp h
  obtain ⟨name, hname, h⟩ := Option.bind_eq_some_iff.mp h
  obtain ⟨sort, hsort, h⟩ := Option.bind_eq_some_iff.mp h
  obtain rfl := Option.some.inj h
  simp only [Declaration.texts, Declaration.Body.texts, allFlat_append, allFlat_cons]
  exact ⟨allFlat_heading (isFlat_of_nominalSort? hsort), isFlat_of_typeName? hname,
    ⟨allFlat_generics, allFlat_inheritance⟩, allFlat_requirements⟩

theorem allFlat_protocol? {d : Declaration} (h : protocol? source node = some d) : AllFlat d.texts := by
  rw [protocol?] at h
  obtain ⟨-, h⟩ := Option.ite_none_left_eq_some.mp h
  obtain ⟨name, hname, h⟩ := Option.bind_eq_some_iff.mp h
  obtain rfl := Option.some.inj h
  simp only [Declaration.texts, Declaration.Body.texts, allFlat_append, allFlat_cons]
  exact ⟨allFlat_heading (by decide), isFlat_of_typeName? hname, allFlat_inheritance, allFlat_requirements⟩

theorem allFlat_associatedType? {d : Declaration} (h : associatedType? source node = some d) : AllFlat d.texts := by
  rw [associatedType?] at h
  obtain ⟨-, h⟩ := Option.ite_none_left_eq_some.mp h
  obtain ⟨name, hname, h⟩ := Option.bind_eq_some_iff.mp h
  obtain rfl := Option.some.inj h
  simp only [Declaration.texts, Declaration.Body.texts, allFlat_append, allFlat_cons]
  exact ⟨allFlat_heading (by decide), isFlat_of_typeName? hname,
    ⟨allFlat_compactString source _, allFlat_compactString source _⟩, allFlat_requirements⟩

theorem allFlat_typeAlias? {d : Declaration} (h : typeAlias? source node = some d) : AllFlat d.texts := by
  rw [typeAlias?] at h
  obtain ⟨-, h⟩ := Option.ite_none_left_eq_some.mp h
  obtain ⟨name, hname, h⟩ := Option.bind_eq_some_iff.mp h
  obtain rfl := Option.some.inj h
  simp only [Declaration.texts, Declaration.Body.texts, allFlat_append, allFlat_cons]
  refine ⟨allFlat_heading (by decide), isFlat_of_typeName? hname, allFlat_generics, ?_⟩
  split
  next => simp
  next =>
    cases hcut : cutAt '=' (node.compactText source) with
    | none => exact allFlat_nil
    | some parts => simpa using ((node.isFlat_compactText source).cutAt hcut).2.trim

/-! ### Parameters -/

namespace ParameterParts

def texts (parts : ParameterParts) : List String :=
  parts.names ++ parts.modifiers ++ parts.type.toList

variable {parts : ParameterParts}

theorem allFlat_step {child : Node} (h : AllFlat parts.texts) (hchild : child.NamesVisible source) :
    AllFlat (parts.step source child).texts := by
  simp only [texts, allFlat_append] at h ⊢
  obtain ⟨⟨hnames, hmodifiers⟩, htype⟩ := h
  rw [step]
  split
  next => exact ⟨⟨hnames, hmodifiers⟩, by simp⟩
  split
  next => exact ⟨⟨hnames, hmodifiers⟩, htype⟩
  split
  next => exact ⟨⟨hnames, by simp [hmodifiers]⟩, htype⟩
  split
  next => exact ⟨⟨hnames, hmodifiers⟩, htype⟩
  split
  next hname =>
    exact ⟨⟨allFlat_append.mpr ⟨hnames, by simpa using hchild.isFlat_string hname.1⟩, hmodifiers⟩, htype⟩
  split
  next => exact ⟨⟨hnames, hmodifiers⟩, by simp⟩
  next => exact ⟨⟨hnames, hmodifiers⟩, htype⟩

theorem allFlat_fullType (h : AllFlat parts.texts) : AllFlat parts.fullType.toList := by
  simp only [texts, allFlat_append] at h
  obtain ⟨⟨-, hmodifiers⟩, htype⟩ := h
  rw [fullType]
  cases hparts : parts.type with
  | none => exact allFlat_nil
  | some type =>
    have htype : IsFlat type.toList := by simpa [hparts] using htype
    have hjoined : IsFlat (" ".intercalate parts.modifiers).toList := (isFlat_link (by decide)).mpr hmodifiers
    simp only [Option.map_some, Option.toList_some, allFlat_cons, allFlat_nil, and_true]
    split
    next => exact htype
    next =>
      simp only [String.toList_append, isFlat_append]
      exact ⟨⟨hjoined, by decide⟩, htype⟩

end ParameterParts

theorem allFlat_parameter (h : node.NamesVisible source) : AllFlat (parameter source node).texts := by
  have hparts : AllFlat (node.children.foldl (ParameterParts.step source) {}).texts :=
    List.foldlRecOn (motive := fun parts : ParameterParts => AllFlat parts.texts) _ _ allFlat_nil
      fun parts hparts child hchild => ParameterParts.allFlat_step hparts (h.of_child hchild)
  have htype := ParameterParts.allFlat_fullType hparts
  simp only [ParameterParts.texts, allFlat_append] at hparts
  obtain ⟨⟨hnames, -⟩, -⟩ := hparts
  have hname : ∀ i : Nat, AllFlat (node.children.foldl (ParameterParts.step source) {}).names[i]?.toList := fun i => by
    rw [allFlat_toList]
    exact fun name hname => hnames name (List.mem_of_getElem? hname)
  simp only [parameter, Parameter.texts, Parameter.names, allFlat_append]
  exact ⟨⟨⟨allFlat_nil, hname 0, hname 1⟩, htype⟩, allFlat_nil⟩

namespace ParameterList

def texts (list : ParameterList) : List String :=
  list.done.flatMap (·.texts) ++ list.pending.flatMap (·.texts)

theorem allFlat_step {list : ParameterList} {child : Node} (h : AllFlat list.texts)
    (hchild : child.NamesVisible source) : AllFlat (list.step source child).texts := by
  obtain ⟨done, pending⟩ := list
  simp only [texts, allFlat_append, allFlat_flatMap] at h ⊢
  obtain ⟨hdone, hpending⟩ := h
  rw [step]
  split
  next =>
    refine ⟨forall_mem_modifyHead hdone fun p hp => ?_, hpending⟩
    simp only [Parameter.texts, Parameter.names, allFlat_append] at hp ⊢
    exact ⟨hp.1, by simp⟩
  split
  next =>
    refine ⟨hdone, List.forall_mem_append.mpr ⟨hpending, fun a ha => ?_⟩⟩
    exact Attribute.allFlat_parse? (child.isFlat_compactText source) (Option.mem_toList.mp ha)
  split
  next =>
    refine ⟨List.forall_mem_cons.mpr ⟨?_, hdone⟩, List.forall_mem_nil _⟩
    have hparameter := allFlat_parameter hchild
    simp only [Parameter.texts, Parameter.names, allFlat_append, allFlat_flatMap] at hparameter ⊢
    exact ⟨⟨⟨hpending, hparameter.1.1.2⟩, hparameter.1.2⟩, hparameter.2⟩
  next => exact ⟨hdone, hpending⟩

end ParameterList

theorem allFlat_parameters (h : node.NamesVisible source) : AllFlat ((parameters source node).flatMap (·.texts)) := by
  have hlist : AllFlat (node.children.foldl (ParameterList.step source) {}).texts :=
    List.foldlRecOn (motive := fun list : ParameterList => AllFlat list.texts) _ _ allFlat_nil
      fun list hlist child hchild => ParameterList.allFlat_step hlist (h.of_child hchild)
  rw [ParameterList.texts, allFlat_append, allFlat_flatMap] at hlist
  rw [parameters, allFlat_flatMap]
  exact fun p hp => hlist.1 p (List.mem_reverse.mp hp)

/-! ### Functions, initializers and subscripts -/

theorem allFlat_throwsAmong (found : List (List Char)) : AllFlat (throwsAmong found).toList := by
  rw [allFlat_toList]
  intro keyword hkeyword
  have hmem := List.mem_of_find?_eq_some hkeyword
  simp only [List.mem_cons, List.not_mem_nil, or_false] at hmem
  rcases hmem with rfl | rfl <;> decide

theorem allFlat_throws : AllFlat (effects source node).throws.toList := by
  simp only [effects]
  split
  next => exact allFlat_nil
  next close _ =>
    dsimp only
    -- A node is read as it stands; words without one are only compared with the two keywords.
    generalize ((node.children.takeWhile (!endsEffects ·)).reverse.takeWhile (·.kind != .closeParen)).find? isThrows =
      written
    cases written with
    | none => exact allFlat_throwsAmong _
    | some keyword => simp

theorem isFlat_of_functionName? {name : String} (h : node.NamesVisible source)
    (hname : functionName? source node = some name) : IsFlat name.toList := by
  rw [functionName?] at hname
  split at hname
  next child _ => exact Option.some.inj hname ▸ child.isFlat_compactString source
  next =>
    obtain ⟨child, hchild, rfl⟩ := Option.map_eq_some_iff.mp hname
    obtain ⟨hmem, hkind⟩ := Node.mem_of_childOfKind? hchild
    exact (h.of_child hmem).isFlat_string (List.mem_singleton.mp hkind)

theorem allFlat_function? {d : Declaration} (h : node.NamesVisible source) (hd : function? source node = some d) :
    AllFlat d.texts := by
  rw [function?] at hd
  obtain ⟨-, hd⟩ := Option.ite_none_left_eq_some.mp hd
  obtain ⟨name, hname, hd⟩ := Option.bind_eq_some_iff.mp hd
  obtain ⟨-, hd⟩ := Option.ite_none_left_eq_some.mp hd
  obtain rfl := Option.some.inj hd
  simp only [Declaration.texts, Declaration.Body.texts, allFlat_append, allFlat_cons]
  exact ⟨allFlat_heading (by decide), isFlat_of_functionName? h hname,
    ⟨⟨⟨allFlat_generics, allFlat_parameters h⟩, allFlat_throws⟩, allFlat_compactString source _⟩, allFlat_requirements⟩

theorem allFlat_failureMark : AllFlat (failureMark source node).toList := by
  rw [failureMark]
  split
  next =>
    split
    next => simp [isBlank]
    next => simp [isBlank]
    next => exact allFlat_nil
  next => exact allFlat_nil

theorem allFlat_initializer? {d : Declaration} (h : node.NamesVisible source) (hd : initializer? source node = some d) :
    AllFlat d.texts := by
  rw [initializer?] at hd
  obtain ⟨-, hd⟩ := Option.ite_none_left_eq_some.mp hd
  obtain rfl := Option.some.inj hd
  simp only [Declaration.texts, Declaration.Body.texts, allFlat_append]
  exact ⟨allFlat_heading (by decide), ⟨⟨⟨allFlat_failureMark, allFlat_generics⟩, allFlat_parameters h⟩, allFlat_throws⟩,
    allFlat_requirements⟩

theorem isFlat_of_accessor? {kind : NodeKind} {accessor : String} (h : accessor? kind = some accessor) :
    IsFlat accessor.toList := by
  unfold accessor? at h
  split at h <;> cases h <;> decide

theorem allFlat_accessors (node : Node) : AllFlat (accessors node) := by
  rw [accessors]
  split
  next => split <;> simp [isBlank]
  next =>
    intro accessor haccessor
    obtain ⟨child, -, hchild⟩ := List.mem_filterMap.mp haccessor
    exact isFlat_of_accessor? hchild

theorem allFlat_subscript? {d : Declaration} (h : node.NamesVisible source) (hd : subscript? source node = some d) :
    AllFlat d.texts := by
  rw [subscript?] at hd
  obtain ⟨-, hd⟩ := Option.ite_none_left_eq_some.mp hd
  obtain rfl := Option.some.inj hd
  have haccessors : AllFlat (((node.childOfKind? [.computedProperty]).map accessors).getD []) := by
    cases node.childOfKind? [.computedProperty] with
    | none => exact allFlat_nil
    | some block => exact allFlat_accessors block
  simp only [Declaration.texts, Declaration.Body.texts, allFlat_append]
  exact ⟨allFlat_heading (by decide), ⟨⟨⟨allFlat_generics, allFlat_parameters h⟩, allFlat_compactString source _⟩,
    allFlat_requirements⟩, haccessors⟩

/-! ### Properties -/

def Binding.texts (binding : Binding) : List String :=
  binding.name :: (binding.type.toList ++ binding.value.toList ++ binding.accessors)

theorem isFlat_bindingName (h : node.NamesVisible source) : IsFlat (bindingName source node).toList := by
  rw [bindingName]
  split
  next hkind => exact h.isFlat_string hkind
  -- A pattern gives the text of its one identifier, and is compacted if it has several.
  split
  next identifier hidentifier =>
    have hmem : identifier ∈ node.namedChildren.filter (·.kind == .simpleIdentifier) := by simp [hidentifier]
    obtain ⟨hchild, hkind⟩ := List.mem_filter.mp hmem
    exact (h.of_child (List.mem_filter.mp hchild).1).isFlat_string (by simpa using hkind)
  next => simp

theorem allFlat_clauseType? : AllFlat (clauseType? source node).toList := by
  rw [allFlat_toList]
  intro type htype
  simp only [clauseType?] at htype
  split at htype
  next child _ =>
    obtain ⟨-, htype⟩ := Option.ite_none_left_eq_some.mp htype
    obtain rfl := Option.some.inj htype
    simp
  next =>
    obtain ⟨-, htype⟩ := Option.ite_none_left_eq_some.mp htype
    obtain rfl := Option.some.inj htype
    simpa using ((node.isFlat_compactText source).dropWhile _).trim

theorem OpenBinding.allFlat_step {state : OpenBinding} {child : Node} (h : AllFlat state.binding.texts) :
    AllFlat (state.step source child).binding.texts := by
  simp only [Binding.texts, allFlat_cons, allFlat_append] at h ⊢
  obtain ⟨hname, ⟨htype, hvalue⟩, haccessors⟩ := h
  rw [step]
  split
  next => exact ⟨hname, ⟨allFlat_clauseType?, hvalue⟩, haccessors⟩
  split
  next => exact ⟨hname, ⟨htype, hvalue⟩, allFlat_accessors child⟩
  split
  next => exact ⟨hname, ⟨htype, hvalue⟩, haccessors⟩
  split
  next => exact ⟨hname, ⟨htype, hvalue⟩, haccessors⟩
  split
  next => exact ⟨hname, ⟨htype, by simp⟩, haccessors⟩
  next => exact ⟨hname, ⟨htype, hvalue⟩, haccessors⟩

theorem allFlat_bindingStep {bindings : List OpenBinding} {child : Node}
    (h : ∀ state ∈ bindings, AllFlat state.binding.texts) (hchild : child.NamesVisible source) :
    ∀ state ∈ bindingStep source bindings child, AllFlat state.binding.texts := by
  rw [bindingStep]
  split
  next => exact List.forall_mem_cons.mpr ⟨by simpa [Binding.texts] using isFlat_bindingName hchild, h⟩
  next => exact forall_mem_modifyHead h fun state hstate => OpenBinding.allFlat_step hstate

theorem allFlat_ownBindings (h : node.NamesVisible source) :
    ∀ binding ∈ ownBindings source node, AllFlat binding.texts := by
  have hbindings : ∀ state ∈ node.children.foldl (bindingStep source) [], AllFlat state.binding.texts :=
    List.foldlRecOn
      (motive := fun bindings : List OpenBinding => ∀ state ∈ bindings, AllFlat state.binding.texts) _ _
      (List.forall_mem_nil _) fun bindings hbindings child hchild => allFlat_bindingStep hbindings (h.of_child hchild)
  intro binding hbinding
  obtain ⟨state, hstate, rfl⟩ := List.mem_map.mp (List.mem_filter.mp hbinding).1
  exact hbindings state (List.mem_reverse.mp hstate)

theorem allFlat_shareTypesFrom {bindings : List Binding} (h : ∀ binding ∈ bindings, AllFlat binding.texts) :
    (∀ binding ∈ (shareTypesFrom bindings).1, AllFlat binding.texts) ∧ AllFlat (shareTypesFrom bindings).2.toList := by
  induction bindings with
  | nil => exact ⟨List.forall_mem_nil _, allFlat_nil⟩
  | cons binding rest ih =>
    obtain ⟨hbinding, hrest⟩ := List.forall_mem_cons.mp h
    obtain ⟨hshared, hnext⟩ := ih hrest
    have htexts := hbinding
    simp only [Binding.texts, allFlat_cons, allFlat_append] at htexts
    obtain ⟨hname, ⟨htype, hvalue⟩, haccessors⟩ := htexts
    rw [shareTypesFrom]
    dsimp only
    split
    next => exact ⟨List.forall_mem_cons.mpr ⟨hbinding, hshared⟩, htype⟩
    split
    next =>
      refine ⟨List.forall_mem_cons.mpr ⟨?_, hshared⟩, hnext⟩
      simp only [Binding.texts, allFlat_cons, allFlat_append]
      exact ⟨hname, ⟨hnext, hvalue⟩, haccessors⟩
    next => exact ⟨List.forall_mem_cons.mpr ⟨hbinding, hshared⟩, allFlat_nil⟩

theorem isFlat_bindingKeyword : IsFlat (bindingKeyword source node).toList := by
  simp only [bindingKeyword]
  split
  next word hword =>
    obtain ⟨pattern, -, hword⟩ := Option.bind_eq_some_iff.mp hword
    rw [String.toList_ofList]
    exact isFlat_of_mem_words (List.mem_of_find?_eq_some hword)
  next => split <;> decide

theorem allFlat_properties {d : Declaration} (h : node.NamesVisible source) (hd : d ∈ properties source node) :
    AllFlat d.texts := by
  rw [properties] at hd
  split at hd
  next => cases hd
  obtain ⟨binding, hbinding, rfl⟩ := List.mem_map.mp hd
  exact allFlat_append.mpr ⟨allFlat_heading isFlat_bindingKeyword,
    (allFlat_shareTypesFrom (allFlat_ownBindings h)).1 binding hbinding⟩

/-! ### Enumeration cases and precedence groups -/

def CaseEntry.texts (entry : CaseEntry) : List String :=
  entry.name :: ((entry.associated.getD []).flatMap (·.texts) ++ entry.raw.toList)

theorem allFlat_caseStep {cases : List CaseEntry} {child : Node} (h : ∀ entry ∈ cases, AllFlat entry.texts)
    (hidentifier : child.NamesVisible source)
    (hname : child.role = some .name → IsVisible (child.text source)) :
    ∀ entry ∈ caseStep source cases child, AllFlat entry.texts := by
  rw [caseStep]
  split
  -- The name of a case can be any node, and so can that of a precedence group: neither is compacted.
  next hchild =>
    have hflat : IsFlat (child.string source).toList := by
      rcases hchild with hrole | ⟨-, hkind⟩
      · rw [Node.string, String.toList_ofList]
        exact (hname hrole).isFlat
      · exact hidentifier.isFlat_string hkind
    exact List.forall_mem_cons.mpr ⟨by simpa [CaseEntry.texts] using hflat, h⟩
  split
  next =>
    refine forall_mem_modifyHead h fun entry hentry => ?_
    simp only [CaseEntry.texts, allFlat_cons, allFlat_append, Option.getD_some] at hentry ⊢
    exact ⟨hentry.1, Parameter.allFlat_parseAssociated (child.isFlat_compactText source), hentry.2.2⟩
  split
  next =>
    refine forall_mem_modifyHead h fun entry hentry => ?_
    simp only [CaseEntry.texts, allFlat_cons, allFlat_append] at hentry ⊢
    exact ⟨hentry.1, hentry.2.1, by simp⟩
  next => exact h

theorem allFlat_enumerationCases {d : Declaration} (h : node.NamesVisible source)
    (hd : d ∈ enumerationCases source node) : AllFlat d.texts := by
  rw [enumerationCases] at hd
  split at hd
  next => cases hd
  next hkind =>
    have hnames := h.caseNames node node.mem_preorder_self (Decidable.not_not.mp hkind)
    have hcases : ∀ entry ∈ node.children.foldl (caseStep source) [], AllFlat entry.texts :=
      List.foldlRecOn (motive := fun cases : List CaseEntry => ∀ entry ∈ cases, AllFlat entry.texts) _ _
        (List.forall_mem_nil _)
        fun cases hcases child hchild => allFlat_caseStep hcases (h.of_child hchild) (hnames child hchild)
    obtain ⟨entry, hentry, rfl⟩ := List.mem_map.mp hd
    exact allFlat_append.mpr ⟨allFlat_heading (by decide), hcases entry (List.mem_reverse.mp hentry)⟩

theorem allFlat_precedenceGroup? {d : Declaration} (h : node.NamesVisible source)
    (hd : precedenceGroup? source node = some d) : AllFlat d.texts := by
  rw [precedenceGroup?] at hd
  obtain ⟨hkind, hd⟩ := Option.ite_none_left_eq_some.mp hd
  have hnames := h.groupNames node node.mem_preorder_self (Decidable.not_not.mp hkind)
  obtain ⟨name, hname, hd⟩ := Option.bind_eq_some_iff.mp hd
  obtain rfl := Option.some.inj hd
  have hflat : IsFlat (name.string source).toList := by
    rcases Option.or_eq_some_iff.mp (Option.orElse_eq_or.symm.trans hname) with hrole | ⟨-, hchild⟩
    · rw [Node.string, String.toList_ofList]
      exact (hnames name hrole).isFlat
    · obtain ⟨hmem, hkind⟩ := Node.mem_of_childOfKind? hchild
      exact (h.of_child hmem).isFlat_string (List.mem_singleton.mp hkind)
  exact allFlat_append.mpr ⟨allFlat_heading (by decide), by simpa [Declaration.Body.texts] using hflat⟩

/-! ### All declarations -/

theorem allFlat_declarations {d : Declaration} (h : node.NamesVisible source) (hd : d ∈ declarations source node) :
    AllFlat d.texts := by
  simp only [declarations, List.mem_append, Option.mem_toList] at hd
  rcases hd with ((((((((hd | hd) | hd) | hd) | hd) | hd) | hd) | hd) | hd) | hd
  · exact allFlat_nominal? hd
  · exact allFlat_protocol? hd
  · exact allFlat_function? h hd
  · exact allFlat_initializer? h hd
  · exact allFlat_subscript? h hd
  · exact allFlat_properties h hd
  · exact allFlat_enumerationCases h hd
  · exact allFlat_typeAlias? hd
  · exact allFlat_associatedType? hd
  · exact allFlat_precedenceGroup? h hd

/-- The signatures of all declarations in a tree have no blanks but spaces, so each stands in one line. -/
theorem lines_signature {source : List Char} {root node : Node} {d : Declaration} (h : root.NamesVisible source)
    (hnode : node ∈ root.preorder) (hd : d ∈ declarations source node) :
    (∀ c ∈ d.signature.toList, isBlank c = true → c = ' ') ∧ lines d.signature.toList = [d.signature.toList] := by
  have hflat : IsFlat d.signature.toList := d.isFlat_signature.mpr (allFlat_declarations (h.of_mem hnode) hd)
  exact ⟨hflat, hflat.lines_eq d.signature_ne_nil⟩

open Node in
/-- A function written over several lines, with a tab after a colon. -/
theorem lines_signature_broken :
    let source := "func f(\n  a:\tInt\n) -> Map<\n  Int>".toList
    let parameter := Node.mk (bare .parameter 10 16).info
      [bare .simpleIdentifier 10 11, bare .colon 11 12, bare .userType 13 16]
    let result := Node.mk { (bare .userType 22 33).info with role := some .returnType } []
    let function := Node.mk (bare .functionDeclaration 0 33).info
      [bare .simpleIdentifier 5 6, bare .openParen 6 7, parameter, bare .closeParen 17 18, bare .arrow 19 21, result]
    let root := Node.mk (bare .functionBody 0 33).info [function]
    root.NamesVisible source ∧
      (declarations source function).map (·.signature) = ["func f(a: Int) -> Map< Int>"] ∧
      ∀ d ∈ declarations source function, lines d.signature.toList = [d.signature.toList] := by
  intro source parameter result function root
  have hnames : root.NamesVisible source := by decide +kernel
  have hfunction : function ∈ root.preorder := mem_preorder_of_child List.mem_cons_self function.mem_preorder_self
  exact ⟨hnames, by decide +kernel, fun d hd => (lines_signature hnames hfunction hd).2⟩

end Extract

end DocIndex
