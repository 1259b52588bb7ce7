import DocIndex.Extract.Property
import DocIndex.Proofs.Extract.Sections

/-! # The bindings of a property declaration

Every name of a property declaration opens a section, and what its binding says itself is read from that section alone
(`Extract.ownBindings_eq`). A binding that says nothing but its name then takes the type of the first binding after it
that says more (`Extract.shareTypes_cons`), and a second round of this changes nothing (`Extract.shareTypes_twice`). -/

namespace DocIndex.Extract

variable {source : List Char}

/-! ### What a binding says itself -/

/-- Whether a child is a block of accessors. -/
def isAccessorBlock (child : Node) : Bool :=
  child.kind == .computedProperty || child.kind == .observerBlock || child.kind == .propertyRequirements

/-- Whether a child can be a value at all: a type clause, a block of accessors, an equal sign or a comma never is. -/
def canBeValue (child : Node) : Bool :=
  !(child.kind == .typeClause || isAccessorBlock child || child.kind == .equalSign || child.kind == .comma)

/-- Whether a child takes the place of a value: the value itself, or any named child where a value could stand. -/
def fillsValue (child : Node) : Bool :=
  canBeValue child && (child.role == some .value || child.named)

/-- Whether an equal sign still waits for its value after the given children, the nearest first: since the sign there
was no comma, and nothing in the place of a value. -/
def awaitsValue (before : List Node) : Bool :=
  (before.find? fun child => child.kind == .equalSign || child.kind == .comma || fillsValue child).any
    (·.kind == .equalSign)

/-- Whether a child is the value of a binding, by its role or because an equal sign waits for it. -/
def isValueAfter (before : List Node) (child : Node) : Bool :=
  canBeValue child && (child.role == some .value || awaitsValue before && child.named)

/-- The last value among some children, the nearest first. -/
def valueNode? : List Node → Option Node
  | [] => none
  | child :: before => if isValueAfter before child then some child else valueNode? before

variable (source) in
/-- The binding of a name and the children after it, the nearest first. The last type clause, value and block of
accessors count. -/
def bindingBefore (name : String) (before : List Node) : Binding where
  name := name
  type := (before.find? (·.kind == .typeClause)).bind (clauseType? source)
  value := (valueNode? before).map (·.compactString source)
  accessors := ((before.find? isAccessorBlock).map accessors).getD []

variable {child : Node} {before : List Node}

theorem isAccessorBlock_iff :
    isAccessorBlock child = true ↔
      child.kind = .computedProperty ∨ child.kind = .observerBlock ∨ child.kind = .propertyRequirements := by
  simp [isAccessorBlock, or_assoc]

theorem canBeValue_iff :
    canBeValue child = true ↔
      child.kind ≠ .typeClause ∧ isAccessorBlock child = false ∧ child.kind ≠ .equalSign ∧ child.kind ≠ .comma := by
  simp [canBeValue, and_assoc]

theorem awaitsValue_of_equalSign (h : child.kind = .equalSign) : awaitsValue (child :: before) = true := by
  simp [awaitsValue, h]

theorem awaitsValue_of_settled (hequal : child.kind ≠ .equalSign) (h : child.kind = .comma ∨ fillsValue child = true) :
    awaitsValue (child :: before) = false := by
  rcases h with h | h <;> simp [awaitsValue, hequal, h]

theorem awaitsValue_of_other (hequal : child.kind ≠ .equalSign) (hcomma : child.kind ≠ .comma)
    (h : fillsValue child = false) : awaitsValue (child :: before) = awaitsValue before := by
  simp [awaitsValue, hequal, hcomma, h]

/-- A child that could be the value and is not finds no equal sign waiting, or is no named child. -/
theorem awaitsValue_of_not_value (hcan : canBeValue child = true) (h : isValueAfter before child = false) :
    awaitsValue (child :: before) = awaitsValue before := by
  obtain ⟨-, -, hequal, hcomma⟩ := canBeValue_iff.mp hcan
  simp only [isValueAfter, hcan, Bool.true_and, Bool.or_eq_false_iff] at h
  cases hfills : fillsValue child with
  | false => exact awaitsValue_of_other hequal hcomma hfills
  | true =>
    have hnamed : child.named = true := by simpa [fillsValue, hcan, h.1] using hfills
    have hnone : awaitsValue before = false := by simpa [hnamed] using h.2
    rw [awaitsValue_of_settled hequal (.inr hfills), hnone]

theorem OpenBinding.step_of_canBeValue (name : String) (before : List Node) (hcan : canBeValue child = true) :
    OpenBinding.step source ⟨bindingBefore source name before, awaitsValue before⟩ child =
      ⟨bindingBefore source name (child :: before), awaitsValue (child :: before)⟩ := by
  obtain ⟨htype, hblock, hequal, hcomma⟩ := canBeValue_iff.mp hcan
  have hvalue : isValueAfter before child = true ↔
      child.role = some .value ∨ awaitsValue before = true ∧ child.named = true := by
    simp [isValueAfter, hcan]
  rw [step, if_neg htype, if_neg (mt isAccessorBlock_iff.mpr (by simp [hblock])), if_neg hequal, if_neg hcomma]
  cases hafter : isValueAfter before child with
  | true =>
    have hfills : fillsValue child = true := by
      rcases hvalue.mp hafter with h | ⟨-, h⟩ <;> simp [fillsValue, hcan, h]
    rw [if_pos (hvalue.mp hafter), awaitsValue_of_settled hequal (.inr hfills)]
    simp [bindingBefore, valueNode?, hafter, htype, hblock]
  | false =>
    rw [if_neg (mt hvalue.mpr (by simp [hafter])), awaitsValue_of_not_value hcan hafter]
    simp [bindingBefore, valueNode?, hafter, htype, hblock]

theorem OpenBinding.step_of_not_canBeValue (name : String) (before : List Node) (hcan : canBeValue child = false) :
    OpenBinding.step source ⟨bindingBefore source name before, awaitsValue before⟩ child =
      ⟨bindingBefore source name (child :: before), awaitsValue (child :: before)⟩ := by
  have hvalue : isValueAfter before child = false ∧ fillsValue child = false := by
    simp [isValueAfter, fillsValue, hcan]
  rw [step]
  split
  next h =>
    rw [awaitsValue_of_other (by simp [h]) (by simp [h]) hvalue.2]
    simp [bindingBefore, valueNode?, hvalue, isAccessorBlock, h]
  split
  next htype hblock =>
    have hequal : child.kind ≠ .equalSign := fun h => by simp [h] at hblock
    have hcomma : child.kind ≠ .comma := fun h => by simp [h] at hblock
    rw [awaitsValue_of_other hequal hcomma hvalue.2]
    simp [bindingBefore, valueNode?, hvalue, htype, isAccessorBlock_iff.mpr hblock]
  split
  next h =>
    rw [awaitsValue_of_equalSign h]
    simp [bindingBefore, valueNode?, hvalue, isAccessorBlock, h]
  split
  next hequal h =>
    rw [awaitsValue_of_settled hequal (.inl h)]
    simp [bindingBefore, valueNode?, hvalue, isAccessorBlock, h]
  next htype hblock hequal hcomma =>
    have hother : isAccessorBlock child = false := by simpa using mt isAccessorBlock_iff.mp hblock
    simp [canBeValue_iff.mpr ⟨htype, hother, hequal, hcomma⟩] at hcan

/-- The children after a name are taken up one by one, and what they come to depends on them alone. -/
theorem OpenBinding.foldl_step (name : String) (between : List Node) :
    between.foldl (OpenBinding.step source) { binding := { name := name } } =
      ⟨bindingBefore source name between.reverse, awaitsValue between.reverse⟩ := by
  have hreverse : ∀ before : List Node,
      before.foldr (fun child state => OpenBinding.step source state child) { binding := { name := name } } =
        ⟨bindingBefore source name before, awaitsValue before⟩ := by
    intro before
    induction before with
    | nil => rfl
    | cons child before ih =>
      rw [List.foldr_cons, ih]
      cases hcan : canBeValue child with
      | true => exact step_of_canBeValue name before hcan
      | false => exact step_of_not_canBeValue name before hcan
  rw [← hreverse, List.foldr_reverse]

/-! ### One binding for each name -/

variable (source) in
/-- The binding of a name and the children between it and the next name. -/
def bindingOf (name : Node) (between : List Node) : Binding :=
  bindingBefore source (bindingName source name) between.reverse

variable (source) in
/-- The bindings among some children of a property declaration, those without a name left out. -/
def bindingsIn (children : List Node) : List Binding :=
  ((sections isBindingName children).map fun s => bindingOf source s.head s.after).filter (!·.name.isEmpty)

variable (source) in
/-- Whether a child is a name that is not empty. -/
def isProperName (child : Node) : Bool :=
  isBindingName child && !(bindingName source child).isEmpty

theorem gathers_bindings (source : List Char) :
    Gathers isBindingName (bindingStep source) id (fun _ => ()) ()
      (fun _ name => { binding := { name := bindingName source name } }) (OpenBinding.step source) (fun _ _ => ()) where
  done_open bindings child h := by simp [bindingStep, h]
  pending_open _ _ _ := rfl
  done_other bindings child h := by simp [bindingStep, h]
  pending_other _ _ _ := rfl

theorem ownBindings_eq (node : Node) : ownBindings source node = bindingsIn source node.children := by
  have hfold := (gathers_bindings source).foldl_eq node.children [] rfl rfl
  rw [id] at hfold
  rw [ownBindings, hfold, List.map_map, bindingsIn]
  congr 2
  funext s
  simp [Section.item, OpenBinding.foldl_step, bindingOf]

theorem length_bindingsIn (children : List Node) :
    (bindingsIn source children).length = children.countP (isProperName source) := by
  have hheads : (bindingsIn source children).length =
      (((sections isBindingName children).map (·.head)).filter fun name =>
        !(bindingName source name).isEmpty).length := by
    rw [bindingsIn, List.filter_map, List.filter_map, List.length_map, List.length_map]
    rfl
  rw [hheads, map_head_sections, List.filter_filter, ← List.countP_eq_length_filter]
  congr 1
  funext child
  rw [isProperName, Bool.and_comm]

theorem bindingsIn_append_cons {name : Node} (h : isProperName source name = true) (front back : List Node) :
    bindingsIn source (front ++ name :: back) =
      bindingsIn source front ++ bindingOf source name (upToNext isBindingName back) :: bindingsIn source back := by
  obtain ⟨hname, hproper⟩ := Bool.and_eq_true_iff.mp h
  rw [bindingsIn, sections_append_cons hname, List.map_append, List.map_cons, List.filter_append,
    List.filter_cons_of_pos (by exact hproper)]
  rfl

/-! ### Shared types -/

/-- Whether a binding says nothing but its name. -/
def Binding.isPlain (binding : Binding) : Bool :=
  binding.type.isNone && binding.value.isNone && binding.accessors.isEmpty

/-- The type of the first binding that says more than its name, if it has one. -/
def firstType (bindings : List Binding) : Option String :=
  (bindings.find? (!·.isPlain)).bind (·.type)

/-- The type that a binding has in the end, given the bindings after it. -/
def Binding.sharedType (binding : Binding) (later : List Binding) : Option String :=
  if binding.isPlain then firstType later else binding.type

theorem firstType_cons (binding : Binding) (later : List Binding) :
    firstType (binding :: later) = binding.sharedType later := by
  cases hplain : binding.isPlain <;> simp [firstType, Binding.sharedType, hplain]

theorem shareTypesFrom_cons (binding : Binding) (later : List Binding)
    (hlater : (shareTypesFrom later).2 = firstType later) :
    shareTypesFrom (binding :: later) =
      ({ binding with type := binding.sharedType later } :: (shareTypesFrom later).1, binding.sharedType later) := by
  obtain ⟨name, type, value, accessors⟩ := binding
  simp only [shareTypesFrom, hlater, Binding.sharedType, Binding.isPlain]
  cases type <;> cases value <;> cases accessors <;> rfl

theorem shareTypesFrom_snd (bindings : List Binding) : (shareTypesFrom bindings).2 = firstType bindings := by
  induction bindings with
  | nil => rfl
  | cons binding later ih => rw [shareTypesFrom_cons binding later ih, firstType_cons]

theorem shareTypes_cons (binding : Binding) (later : List Binding) :
    shareTypes (binding :: later) = { binding with type := binding.sharedType later } :: shareTypes later := by
  rw [shareTypes, shareTypesFrom_cons binding later (shareTypesFrom_snd later), shareTypes]

theorem length_shareTypes (bindings : List Binding) : (shareTypes bindings).length = bindings.length := by
  induction bindings with
  | nil => rfl
  | cons binding later ih => rw [shareTypes_cons, List.length_cons, List.length_cons, ih]

theorem getElem?_shareTypes (front : List Binding) (binding : Binding) (later : List Binding) :
    (shareTypes (front ++ binding :: later))[front.length]? =
      some { binding with type := binding.sharedType later } := by
  induction front with
  | nil => rw [List.nil_append, shareTypes_cons]; rfl
  | cons first rest ih => rw [List.cons_append, shareTypes_cons, List.length_cons, List.getElem?_cons_succ, ih]

/-- A type taken over once is found again in the same place. -/
theorem sharedType_again {binding : Binding} {later shared : List Binding} (h : firstType shared = firstType later) :
    { binding with type := binding.sharedType later }.sharedType shared = binding.sharedType later := by
  obtain ⟨name, type, value, accessors⟩ := binding
  cases hfirst : firstType later <;> cases type <;> cases value <;> cases accessors <;>
    simp_all [Binding.sharedType, Binding.isPlain]

theorem firstType_shareTypes (bindings : List Binding) : firstType (shareTypes bindings) = firstType bindings := by
  induction bindings with
  | nil => rfl
  | cons binding later ih => rw [shareTypes_cons, firstType_cons, firstType_cons, sharedType_again ih]

theorem shareTypes_twice (bindings : List Binding) : shareTypes (shareTypes bindings) = shareTypes bindings := by
  induction bindings with
  | nil => rfl
  | cons binding later ih =>
    rw [shareTypes_cons, shareTypes_cons, ih, sharedType_again (firstType_shareTypes later)]

/-- There is one property for each name that is not empty, in order, all with one heading. What it says itself is read
from the children between its name and the next one. If that is nothing, it takes the type of the first binding after
it that says anything. A second round of this changes nothing. -/
theorem properties_sectioned (source : List Char) (node : Node)
    (hkind : node.kind = .propertyDeclaration ∨ node.kind = .protocolPropertyDeclaration) :
    (properties source node).length = node.children.countP (isProperName source) ∧
      (∀ front name back, node.children = front ++ name :: back → isProperName source name = true →
        let own := bindingOf source name (upToNext isBindingName back)
        (properties source node)[front.countP (isProperName source)]? =
          some ⟨heading source node (bindingKeyword source node),
            .property own.name (own.sharedType (bindingsIn source back)) own.value own.accessors⟩) ∧
      ∀ bindings, shareTypes (shareTypes bindings) = shareTypes bindings := by
  have hkind : ¬(node.kind ≠ .propertyDeclaration ∧ node.kind ≠ .protocolPropertyDeclaration) := by
    rintro ⟨hproperty, hprotocol⟩
    exact hkind.elim hproperty hprotocol
  rw [properties, if_neg hkind, ownBindings_eq]
  refine ⟨?_, fun front name back hchildren hname => ?_, shareTypes_twice⟩
  · rw [List.length_map, length_shareTypes, length_bindingsIn]
  · rw [hchildren, bindingsIn_append_cons hname, ← length_bindingsIn, List.getElem?_map, getElem?_shareTypes]
    rfl

open Node in
/-- A bare binding before an annotated one takes its type, one before an initialized one takes none. -/
theorem properties_sectioned_mixed :
    let source := "var a, b: T, c, d = 1".toList
    let name (start stop : Nat) := Node.mk { (bare .simpleIdentifier start stop).info with role := some .name } []
    let rest := [bare .comma 11 12, name 13 14, bare .comma 14 15, name 16 17, bare .equalSign 18 19,
      bare .identifier 20 21]
    let clause := Node.mk (bare .typeClause 8 11).info
      [Node.mk { (bare .userType 10 11).info with role := some .type } []]
    let node := Node.mk (bare .propertyDeclaration 0 21).info
      ([bare .varKeyword 0 3] ++ name 4 5 :: bare .comma 5 6 :: name 7 8 :: clause :: rest)
    node.kind = .propertyDeclaration ∧ isProperName source (name 4 5) = true ∧
      isProperName source (name 13 14) = true ∧ (properties source node).length = 4 ∧
      (properties source node)[0]? = some ⟨⟨[], [], "var"⟩, .property "a" (some "T") none []⟩ ∧
      (properties source node)[2]? = some ⟨⟨[], [], "var"⟩, .property "c" none none []⟩ := by
  intro source name rest clause node
  obtain ⟨hlength, hproperty, -⟩ := properties_sectioned source node (.inl rfl)
  have hfirst : isProperName source (name 4 5) = true := by decide +kernel
  have hthird : isProperName source (name 13 14) = true := by decide +kernel
  refine ⟨rfl, hfirst, hthird, hlength.trans (by decide +kernel), ?_, ?_⟩
  · exact (hproperty [bare .varKeyword 0 3] (name 4 5) (bare .comma 5 6 :: name 7 8 :: clause :: rest) rfl hfirst).trans
      (by decide +kernel)
  · exact (hproperty [bare .varKeyword 0 3, name 4 5, bare .comma 5 6, name 7 8, clause, bare .comma 11 12] (name 13 14)
      [bare .comma 14 15, name 16 17, bare .equalSign 18 19, bare .identifier 20 21] rfl hthird).trans
      (by decide +kernel)

end DocIndex.Extract
