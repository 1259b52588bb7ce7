import DocIndex.Extract.Callable
import DocIndex.Proofs.Extract.Sections

/-! # Parameters by position

The attributes of a parameter stand before it and its default value after it, all as siblings. One pass over the
children gives every parameter the attributes between it and the parameter before, and the last default value between
it and the next one; the rest of it is read from its own node (`Extract.parameters_sectioned`). -/

namespace DocIndex.Extract

/-- Whether a child is the default value of the parameter before it. -/
def isDefault (child : Node) : Bool :=
  child.role == some .defaultValue

/-- Whether a child is a parameter: a default value never is, whatever its kind. -/
def isParameter (child : Node) : Bool :=
  !isDefault child && child.kind == .parameter

variable (source : List Char)

/-- A parameter after a child that may be its default value. -/
def withDefault (p : Parameter) (child : Node) : Parameter :=
  if isDefault child then { p with defaultValue := some (child.compactString source) } else p

/-- The attributes for the next parameter after a child that may be one of them. -/
def withAttribute (pending : List Attribute) (child : Node) : List Attribute :=
  pending ++ attributesOf source ([child].filter (!isDefault ·))

/-- A parameter that starts with the attributes gathered for it. -/
def startParameter (pending : List Attribute) (child : Node) : Parameter :=
  { parameter source child with attributes := pending }

variable {source} {child : Node}

/-! ### One step -/

theorem isDefault_eq_true : isDefault child = true ↔ child.role = some .defaultValue := by
  simp [isDefault]

theorem attributesOf_append (nodes more : List Node) :
    attributesOf source (nodes ++ more) = attributesOf source nodes ++ attributesOf source more := by
  simp [attributesOf]

theorem ParameterList.step_default (h : isDefault child = true) (list : ParameterList) :
    list.step source child = { list with done := list.done.modifyHead (withDefault source · child) } := by
  simp [step, isDefault_eq_true.mp h, withDefault, h]

theorem ParameterList.step_parameter (h : isParameter child = true) (list : ParameterList) :
    list.step source child = ⟨startParameter source list.pending child :: list.done, []⟩ := by
  have h : child.role ≠ some .defaultValue ∧ child.kind = .parameter := by
    simpa [isParameter, isDefault] using h
  simp [step, h.1, h.2, startParameter]

theorem ParameterList.step_other (hdefault : isDefault child = false) (hparameter : isParameter child = false)
    (list : ParameterList) :
    list.step source child = { list with pending := withAttribute source list.pending child } := by
  have hrole : child.role ≠ some .defaultValue := fun h => by simp [isDefault_eq_true.mpr h] at hdefault
  have hkind : child.kind ≠ .parameter := fun h => by simp [isParameter, hdefault, h] at hparameter
  by_cases hattribute : child.kind = .attributeUse
  · cases hparse : Attribute.parse? (child.compactText source) <;>
      simp [step, hrole, hattribute, withAttribute, attributesOf, hdefault, hparse]
  · simp [step, hrole, hattribute, hkind, withAttribute, attributesOf, hdefault]

theorem gathers_parameters :
    Gathers isParameter (ParameterList.step source) (·.done) (·.pending) [] (startParameter source)
      (withDefault source) (withAttribute source) where
  done_open list child h := by rw [ParameterList.step_parameter h]
  pending_open list child h := by rw [ParameterList.step_parameter h]
  done_other list child h := by
    cases hdefault : isDefault child with
    | true => rw [ParameterList.step_default hdefault]
    | false =>
      have hkeep : (withDefault source · child) = id := by
        funext p
        simp [withDefault, hdefault]
      rw [ParameterList.step_other hdefault h, hkeep, List.modifyHead_id]
      rfl
  pending_other list child h := by
    cases hdefault : isDefault child with
    | true =>
      rw [ParameterList.step_default hdefault]
      simp [withAttribute, attributesOf, hdefault]
    | false => rw [ParameterList.step_other hdefault h]

/-! ### One section -/

theorem foldl_withAttribute (before : List Node) (pending : List Attribute) :
    before.foldl (withAttribute source) pending =
      pending ++ attributesOf source (before.filter (!isDefault ·)) := by
  induction before generalizing pending with
  | nil => simp [attributesOf]
  | cons child rest ih =>
    have hfilter : (child :: rest).filter (!isDefault ·) =
        [child].filter (!isDefault ·) ++ rest.filter (!isDefault ·) :=
      List.filter_append [child] rest
    rw [List.foldl_cons, ih, withAttribute, hfilter, attributesOf_append, List.append_assoc]

theorem foldl_withDefault (after : List Node) (p : Parameter) :
    after.foldl (withDefault source) p =
      { p with
        defaultValue :=
          ((after.filter isDefault).getLast?.map (·.compactString source)).or p.defaultValue } := by
  induction after generalizing p with
  | nil => rfl
  | cons child rest ih =>
    rw [List.foldl_cons, ih, List.filter_cons]
    cases hdefault : isDefault child with
    | false => simp [withDefault, hdefault]
    | true => cases hlast : (rest.filter isDefault).getLast? <;> simp [withDefault, hdefault, List.getLast?_cons, hlast]

variable (source) in
/-- The parameter of one section. -/
def sectionParameter (s : Section Node) : Parameter :=
  { parameter source s.head with
    attributes := attributesOf source (s.before.filter (!isDefault ·))
    defaultValue := (s.after.filter isDefault).getLast?.map (·.compactString source) }

theorem parameters_eq_map (node : Node) :
    parameters source node = (sections isParameter node.children).map (sectionParameter source) := by
  have hsection : Section.item [] (startParameter source) (withDefault source) (withAttribute source) =
      sectionParameter source := by
    funext s
    rw [Section.item, foldl_withAttribute, foldl_withDefault]
    simp [startParameter, sectionParameter, parameter]
  rw [← hsection, ← gathers_parameters.foldl_eq node.children {} rfl rfl]
  rfl

/-! ### The node of a parameter -/

theorem ParameterParts.step_congr {other : List Char} (h : child.text other = child.text source)
    (parts : ParameterParts) : parts.step other child = parts.step source child := by
  simp only [step, Node.string, Node.compactString, Node.compactText, h]

theorem parameter_congr {other : List Char} {node : Node}
    (h : ∀ child ∈ node.children, child.text other = child.text source) :
    parameter other node = parameter source node := by
  have hparts : ∀ (children : List Node) (parts : ParameterParts),
      (∀ child ∈ children, child.text other = child.text source) →
      children.foldl (ParameterParts.step other) parts = children.foldl (ParameterParts.step source) parts := by
    intro children
    induction children with
    | nil => exact fun _ _ => rfl
    | cons child rest ih =>
      intro parts h
      obtain ⟨hchild, hrest⟩ := List.forall_mem_cons.mp h
      rw [List.foldl_cons, List.foldl_cons, ParameterParts.step_congr hchild, ih _ hrest]
  rw [parameter, parameter, hparts _ _ h]

/-- There is one parameter for each child that is one, in order. Its attributes are those between it and the
parameter before, its default value is the last one between it and the next, and everything else is read from its own
node and the text of the children there. -/
theorem parameters_sectioned (source : List Char) (node : Node) :
    (parameters source node).length = node.children.countP isParameter ∧
      ∀ front head back, node.children = front ++ head :: back → isParameter head = true →
        (parameters source node)[front.countP isParameter]? =
            some { parameter source head with
              attributes := attributesOf source ((sinceLast isParameter front).filter (!isDefault ·))
              defaultValue :=
                ((upToNext isParameter back).filter isDefault).getLast?.map (·.compactString source) } ∧
          ∀ other : List Char, (∀ child ∈ head.children, child.text other = child.text source) →
            parameter other head = parameter source head := by
  rw [parameters_eq_map]
  refine ⟨by rw [List.length_map, length_sections], fun front head back hchildren hhead => ?_⟩
  refine ⟨?_, fun _ => parameter_congr⟩
  rw [hchildren, sections_append_cons hhead, ← length_sections, List.map_append, List.map_cons,
    ← List.length_map (sectionParameter source), List.getElem?_append_right (Nat.le_refl _), Nat.sub_self]
  rfl

open Node in
/-- Two parameters, each with an attribute, the first with two default values. -/
theorem parameters_sectioned_pair :
    let source := "(@A x: Int = 1 2, @B y: T)".toList
    let value (start stop : Nat) := Node.mk { (bare .identifier start stop).info with role := some .defaultValue } []
    let first := Node.mk (bare .parameter 4 10).info
      [bare .simpleIdentifier 4 5, bare .colon 5 6, bare .userType 7 10]
    let second := Node.mk (bare .parameter 21 25).info
      [bare .simpleIdentifier 21 22, bare .colon 22 23, bare .userType 24 25]
    let front := [bare .openParen 0 1, bare .attributeUse 1 3]
    let middle := [value 13 14, value 15 16, bare .comma 16 17, bare .attributeUse 18 20]
    let back := [bare .closeParen 25 26]
    let node := Node.mk (bare .functionDeclaration 0 26).info (front ++ first :: middle ++ second :: back)
    isParameter first = true ∧ isParameter second = true ∧ (parameters source node).length = 2 ∧
      (parameters source node)[0]? =
        some { attributes := [⟨"A", []⟩], firstName := some "x", type := some "Int", defaultValue := some "2" } ∧
      (parameters source node)[1]? =
        some { attributes := [⟨"B", []⟩], firstName := some "y", type := some "T", defaultValue := none } := by
  intro source value first second front middle back node
  obtain ⟨hlength, hparameter⟩ := parameters_sectioned source node
  have hfirst : isParameter first = true := by decide
  have hsecond : isParameter second = true := by decide
  refine ⟨hfirst, hsecond, hlength.trans (by decide), ?_, ?_⟩
  · exact (hparameter front first (middle ++ second :: back) (List.append_assoc ..) hfirst).1.trans (by decide +kernel)
  · exact (hparameter (front ++ first :: middle) second back rfl hsecond).1.trans (by decide +kernel)

end DocIndex.Extract
