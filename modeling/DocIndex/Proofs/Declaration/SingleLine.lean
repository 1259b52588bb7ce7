import DocIndex.Declaration.Signature
import DocIndex.Proofs.Declaration.Attribute
import DocIndex.Proofs.Declaration.Parameter
import DocIndex.Proofs.Declaration.Requirement
import DocIndex.Proofs.Text.Flat

/-! # Flat signatures

A signature is put together from the texts of a declaration (`Declaration.texts`) with signs and single spaces between
them, so it is flat exactly if all of them are (`Declaration.isFlat_signature`). Attributes, modifiers, type parameters,
requirements and associated values that are read from flat text have flat texts. -/

namespace DocIndex

open Text

namespace Text

/-- All the texts are flat. -/
def AllFlat (texts : List String) : Prop :=
  ∀ text ∈ texts, IsFlat text.toList

@[simp] theorem forall_isFlat {texts : List String} : (∀ text ∈ texts, IsFlat text.toList) ↔ AllFlat texts :=
  Iff.rfl

@[simp] theorem allFlat_nil : AllFlat [] :=
  List.forall_mem_nil _

@[simp] theorem allFlat_cons {text : String} {texts : List String} :
    AllFlat (text :: texts) ↔ IsFlat text.toList ∧ AllFlat texts :=
  List.forall_mem_cons

@[simp] theorem allFlat_append {first second : List String} :
    AllFlat (first ++ second) ↔ AllFlat first ∧ AllFlat second :=
  List.forall_mem_append

@[simp] theorem allFlat_flatMap {α : Type} {items : List α} {texts : α → List String} :
    AllFlat (items.flatMap texts) ↔ ∀ item ∈ items, AllFlat (texts item) :=
  List.forall_mem_flatMap

@[simp] theorem allFlat_map {α : Type} {items : List α} {text : α → String} :
    AllFlat (items.map text) ↔ ∀ item ∈ items, IsFlat (text item).toList :=
  List.forall_mem_map

@[simp] theorem allFlat_toList {text : Option String} :
    AllFlat text.toList ↔ ∀ value, text = some value → IsFlat value.toList := by
  simp [AllFlat, -forall_isFlat]

theorem isFlat_link {link : String} (hlink : IsFlat link.toList) {texts : List String} :
    IsFlat (link.intercalate texts).toList ↔ AllFlat texts := by
  rw [String.toList_intercalate, isFlat_intercalate hlink, List.forall_mem_map, forall_isFlat]

end Text

/-! ### Marks before a declaration -/

namespace Attribute

def texts (a : Attribute) : List String :=
  a.name :: a.arguments

@[simp] theorem isFlat_render (a : Attribute) : IsFlat a.render.toList ↔ AllFlat a.texts := by
  obtain ⟨name, arguments⟩ := a
  cases arguments <;> simp [render, texts, isBlank, isFlat_intercalate]

end Attribute

namespace Modifier

def texts (m : Modifier) : List String :=
  m.name :: m.detail.toList

@[simp] theorem isFlat_render (m : Modifier) : IsFlat m.render.toList ↔ AllFlat m.texts := by
  obtain ⟨name, detail⟩ := m
  cases detail <;> simp [render, texts, isBlank]

end Modifier

namespace Heading

def texts (h : Heading) : List String :=
  h.attributes.flatMap (·.texts) ++ h.modifiers.flatMap (·.texts) ++ [h.keyword]

theorem isFlat_render (h : Heading) : IsFlat h.render.toList ↔ AllFlat h.texts := by
  simp [render, renderMarks, texts, isFlat_flatMap]

end Heading

namespace GenericParameter

def texts (p : GenericParameter) : List String :=
  p.name :: p.bound.toList

@[simp] theorem isFlat_render (p : GenericParameter) : IsFlat p.render.toList ↔ AllFlat p.texts := by
  obtain ⟨name, bound⟩ := p
  cases bound <;> simp [render, texts, isBlank]

@[simp] theorem isFlat_renderAll (generics : List GenericParameter) :
    IsFlat (renderAll generics).toList ↔ AllFlat (generics.flatMap (·.texts)) := by
  cases generics <;> simp [renderAll, isBlank, isFlat_intercalate]

end GenericParameter

namespace Requirement

def texts (r : Requirement) : List String :=
  [r.left, r.right]

@[simp] theorem isFlat_render (r : Requirement) : IsFlat r.render.toList ↔ AllFlat r.texts := by
  obtain ⟨left, relation, right⟩ := r
  cases relation <;> simp [render, texts, isBlank]

@[simp] theorem isFlat_renderAll (requirements : List Requirement) :
    IsFlat (renderAll requirements).toList ↔ AllFlat (requirements.flatMap (·.texts)) := by
  cases requirements <;> simp [renderAll, isBlank, isFlat_intercalate]

end Requirement

namespace Parameter

def texts (p : Parameter) : List String :=
  p.attributes.flatMap (·.texts) ++ p.names ++ p.type.toList ++ p.defaultValue.toList

theorem isFlat_renderStart (p : Parameter) :
    IsFlat p.renderStart.toList ↔ AllFlat (p.attributes.flatMap (·.texts) ++ p.names) := by
  rw [renderStart, isFlat_link (by decide), allFlat_append, allFlat_append]
  cases hnames : p.names with
  | nil => simp
  | cons name rest => simp [isFlat_intercalate, isBlank]

theorem isFlat_renderType (p : Parameter) : IsFlat p.renderType.toList ↔ AllFlat p.type.toList := by
  rw [renderType]
  split
  next type htype => split <;> simp [htype, isBlank]
  next htype => simp [htype]

@[simp] theorem isFlat_render (p : Parameter) : IsFlat p.render.toList ↔ AllFlat p.texts := by
  have hdots : IsFlat (if p.variadic then "..." else "").toList := by split <;> decide
  simp only [render, texts, String.toList_append, isFlat_append, allFlat_append, isFlat_renderStart, isFlat_renderType]
  rw [and_iff_left hdots]
  refine and_congr_right fun _ => ?_
  cases p.defaultValue <;> simp [isBlank]

@[simp] theorem isFlat_renderAll (parameters : List Parameter) :
    IsFlat (renderAll parameters).toList ↔ AllFlat (parameters.flatMap (·.texts)) := by
  simp [renderAll, isFlat_intercalate, isBlank]

end Parameter

/-! ### Declarations -/

@[simp] theorem Effects.isFlat_render (effects : Effects) :
    IsFlat effects.render.toList ↔ AllFlat effects.throws.toList := by
  cases hthrows : effects.throws <;> cases hasync : effects.isAsync <;> simp [render, hthrows, hasync, isBlank]

namespace Declaration

@[simp] theorem isFlat_renderInheritance (types : List String) :
    IsFlat (renderInheritance types).toList ↔ AllFlat types := by
  cases types <;> simp [renderInheritance, isFlat_intercalate, isBlank]

@[simp] theorem isFlat_renderAccessors (accessors : List String) :
    IsFlat (renderAccessors accessors).toList ↔ AllFlat accessors := by
  cases accessors <;> simp [renderAccessors, isFlat_intercalate, isBlank]

theorem isFlat_renderPart {lead : String} (hlead : IsFlat lead.toList) (part : Option String) :
    IsFlat (renderPart lead part).toList ↔ AllFlat part.toList := by
  cases part <;> simp [renderPart, hlead]

/-- The texts that the signature shows. -/
def Body.texts : Body → List String
  | .nominal _ name generics inheritance requirements =>
    name :: (generics.flatMap (·.texts) ++ inheritance ++ requirements.flatMap (·.texts))
  | .enumerationCase name associated raw => name :: ((associated.getD []).flatMap (·.texts) ++ raw.toList)
  | .protocolType name inheritance requirements => name :: (inheritance ++ requirements.flatMap (·.texts))
  | .function name generics signature requirements =>
    name :: (generics.flatMap (·.texts) ++ signature.input.flatMap (·.texts) ++ signature.effects.throws.toList ++
      signature.output.toList ++ requirements.flatMap (·.texts))
  | .initializer mark generics parameters effects requirements =>
    mark.toList ++ generics.flatMap (·.texts) ++ parameters.flatMap (·.texts) ++ effects.throws.toList ++
      requirements.flatMap (·.texts)
  | .subscript generics indices output requirements accessors =>
    generics.flatMap (·.texts) ++ indices.flatMap (·.texts) ++ output.toList ++ requirements.flatMap (·.texts) ++
      accessors
  | .property name type value accessors => name :: (type.toList ++ value.toList ++ accessors)
  | .typeAlias name generics type => name :: (generics.flatMap (·.texts) ++ type.toList)
  | .associatedType name inheritance defaultType requirements =>
    name :: (inheritance ++ defaultType.toList ++ requirements.flatMap (·.texts))
  | .precedenceGroup name .. => [name]

theorem Body.isFlat_render (body : Body) : IsFlat body.render.toList ↔ AllFlat body.texts := by
  have htype := isFlat_renderPart (show IsFlat ": ".toList by decide)
  have houtput := isFlat_renderPart (show IsFlat " -> ".toList by decide)
  have hvalue := isFlat_renderPart (show IsFlat " = ".toList by decide)
  cases body with
  | nominal sort name generics inheritance requirements => simp [render, texts, isBlank]
  | enumerationCase name associated raw => cases associated <;> simp [render, texts, isBlank, hvalue]
  | protocolType name inheritance requirements => simp [render, texts, isBlank]
  | function name generics signature requirements => simp [render, texts, isBlank, houtput]
  | initializer mark generics parameters effects requirements => cases mark <;> simp [render, texts]
  | subscript generics indices output requirements accessors => simp [render, texts, houtput]
  | property name type value accessors => simp [render, texts, isBlank, htype, hvalue]
  | typeAlias name generics type => simp [render, texts, isBlank, hvalue]
  | associatedType name inheritance defaultType requirements => simp [render, texts, isBlank, hvalue]
  | precedenceGroup name assignment associativity relations => simp [render, texts, isBlank]

def texts (d : Declaration) : List String :=
  d.heading.texts ++ d.body.texts

theorem isFlat_signature (d : Declaration) : IsFlat d.signature.toList ↔ AllFlat d.texts := by
  rw [signature, String.toList_append, isFlat_append, Heading.isFlat_render, Body.isFlat_render, texts, allFlat_append]

theorem signature_ne_nil (d : Declaration) : d.signature.toList ≠ [] := by
  rw [signature, String.toList_append]
  refine List.append_ne_nil_of_right_ne_nil _ ?_
  cases d.body <;> simp [Body.render, Parameter.renderAll]

end Declaration

/-! ### What is read from flat text -/

section

variable {text : List Char}

theorem Text.IsFlat.parenthesized {name inner : List Char} (h : IsFlat text)
    (hcut : parenthesized? text = some (name, inner)) : IsFlat name ∧ IsFlat inner := by
  obtain ⟨tail, rfl, -⟩ := parenthesized?_eq_some_iff.mp hcut
  exact ⟨h.parts.1, h.parts.2.parts.1⟩

theorem Attribute.allFlat_ofBody (h : IsFlat text) : AllFlat (ofBody text).texts := by
  cases hcut : parenthesized? text with
  | none =>
    rw [ofBody_of_none hcut]
    simpa [texts] using h
  | some parts =>
    obtain ⟨name, inner⟩ := parts
    obtain ⟨hname, hinner⟩ := h.parenthesized hcut
    have harguments : ∀ argument ∈ splitTop ',' inner, IsFlat argument := fun _ => hinner.of_mem_splitTop
    rw [ofBody_of_some hcut]
    simpa [texts, hname.trim] using harguments

theorem Attribute.allFlat_parse? {a : Attribute} (h : IsFlat text) (ha : parse? text = some a) : AllFlat a.texts := by
  rw [parse?] at ha
  split at ha
  next rest hrest =>
    have hrest : IsFlat ('@' :: rest) := hrest ▸ h.trim
    dsimp only at ha
    split at ha
    next => cases ha
    next =>
      obtain rfl := Option.some.inj ha
      exact allFlat_ofBody ((isFlat_cons.mp hrest).2.dropWhile isBlank)
  next => cases ha

theorem Modifier.allFlat_parse (h : IsFlat text) : AllFlat (parse text).texts := by
  cases hcut : parenthesized? (trim text) with
  | none =>
    rw [parse_of_none hcut]
    simpa [texts, plain] using h.trim
  | some parts =>
    obtain ⟨name, inner⟩ := parts
    obtain ⟨hname, hinner⟩ := h.trim.parenthesized hcut
    rw [parse_of_some hcut]
    simp [texts, hname.trim, hinner.trim]

theorem GenericParameter.allFlat_parse? {p : GenericParameter} (h : IsFlat text) (hp : parse? text = some p) :
    AllFlat p.texts := by
  rw [parse?] at hp
  split at hp
  next => cases hp
  next =>
    split at hp
    next name bound hcut =>
      obtain rfl := Option.some.inj hp
      obtain ⟨hname, hbound⟩ := h.trim.cutTop hcut
      simp [texts, hname.trim, hbound.trim]
    next =>
      obtain rfl := Option.some.inj hp
      simpa [texts] using h.trim

namespace Requirement

theorem allFlat_ofClause? {r : Requirement} (h : IsFlat text) (hr : ofClause? text = some r) : AllFlat r.texts := by
  obtain ⟨left, right, rfl, -, heq⟩ := ofClause?_eq_some_iff.mp hr
  obtain ⟨hleft, -, hright⟩ : IsFlat left ∧ IsFlat r.relation.sign ∧ IsFlat right := by simpa using h
  rw [heq]
  simp [texts, between, hleft.trim, hright.trim]

theorem allFlat_parseAll (h : IsFlat text) : AllFlat ((parseAll text).flatMap (·.texts)) := by
  rw [allFlat_flatMap]
  intro r hr
  obtain ⟨clause, hclause, hr⟩ := List.mem_filterMap.mp hr
  exact allFlat_ofClause? (h.trim.dropStart.of_mem_splitTop hclause) hr

end Requirement

namespace Parameter

theorem allFlat_label (i : Nat) (text : List Char) : AllFlat ((words text)[i]?.map String.ofList).toList := by
  cases hlabel : (words text)[i]? with
  | none => exact allFlat_nil
  | some label => simpa using isFlat_of_mem_words (List.mem_of_getElem? hlabel)

theorem allFlat_ofTyped {value : Option String} (h : IsFlat text) (hvalue : AllFlat value.toList) :
    AllFlat (ofTyped text value).texts := by
  rw [ofTyped]
  split
  next before type hcut =>
    dsimp only
    split
    next =>
      have htype : AllFlat [String.ofList (trim type)] := by simpa using (h.cutTop hcut).2.trim
      simp only [texts, names, allFlat_append]
      exact ⟨⟨⟨allFlat_nil, allFlat_label 0 before, allFlat_label 1 before⟩, htype⟩, hvalue⟩
    next => simpa [texts, names, h] using hvalue
  next => simpa [texts, names, h] using hvalue

theorem allFlat_ofElement (h : IsFlat text) : AllFlat (ofElement text).texts := by
  rw [ofElement]
  split
  next typed value hcut =>
    obtain ⟨htyped, hvalue⟩ := h.cutTop hcut
    exact allFlat_ofTyped htyped.trim (by simpa using hvalue.trim)
  next => exact allFlat_ofTyped h allFlat_nil

theorem isFlat_insideParentheses (h : IsFlat text) : IsFlat (insideParentheses text) := by
  rw [insideParentheses]
  split
  next rest hrest =>
    have hrest : IsFlat ('(' :: rest) := hrest ▸ h.trim
    split
    next => exact (isFlat_cons.mp hrest).2.of_subset (List.dropLast_subset rest)
    next => exact h
  next => exact h

theorem allFlat_parseAssociated (h : IsFlat text) : AllFlat ((parseAssociated text).flatMap (·.texts)) := by
  rw [allFlat_flatMap]
  intro p hp
  obtain ⟨element, helement, rfl⟩ := List.mem_map.mp hp
  exact allFlat_ofElement ((isFlat_insideParentheses h).of_mem_splitTop helement)

end Parameter

end

end DocIndex
