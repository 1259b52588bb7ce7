import DocIndex.Declaration.Json
import DocIndex.Proofs.Json.Record

/-! # Declarations read back from JSON

Each part of a declaration, and with them every declaration, extension and import, is read back as what
was written. -/

namespace DocIndex

open Json

namespace Attribute

@[simp] theorem whole_toJson (a : Attribute) : a.toJson.Whole := by
  simp [toJson]

@[simp] theorem inverts_ofJson? : Inverts ofJson? toJson := fun a => by
  simp [ofJson?, toJson, fields?_object]

end Attribute

namespace Modifier

@[simp] theorem whole_toJson (m : Modifier) : m.toJson.Whole := by
  simp [toJson]

@[simp] theorem inverts_ofJson? : Inverts ofJson? toJson := fun m => by
  simp [ofJson?, toJson, fields?_object]

end Modifier

namespace GenericParameter

@[simp] theorem whole_toJson (p : GenericParameter) : p.toJson.Whole := by
  simp [toJson]

@[simp] theorem inverts_ofJson? : Inverts ofJson? toJson := fun p => by
  simp [ofJson?, toJson, fields?_object]

end GenericParameter

theorem Relation.ofName?_name (r : Relation) : ofName? r.name = some r := by
  cases r <;> decide

namespace Requirement

@[simp] theorem whole_toJson (r : Requirement) : r.toJson.Whole := by
  simp [toJson]

@[simp] theorem inverts_ofJson? : Inverts ofJson? toJson := fun r => by
  simp [ofJson?, toJson, fields?_object, Relation.ofName?_name]

end Requirement

namespace Parameter

@[simp] theorem whole_toJson (p : Parameter) : p.toJson.Whole := by
  simp [toJson]

@[simp] theorem inverts_ofJson? : Inverts ofJson? toJson := fun p => by
  simp [ofJson?, toJson, fields?_object]

end Parameter

namespace FunctionSignature

@[simp] theorem whole_toJson (s : FunctionSignature) : s.toJson.Whole := by
  simp [toJson]

@[simp] theorem inverts_ofJson? : Inverts ofJson? toJson := fun s => by
  simp [ofJson?, toJson, fields?_object]

end FunctionSignature

namespace PrecedenceRelation

@[simp] theorem whole_toJson (r : PrecedenceRelation) : r.toJson.Whole := by
  simp [toJson]

@[simp] theorem inverts_ofJson? : Inverts ofJson? toJson := fun r => by
  simp [ofJson?, toJson, fields?_object]

end PrecedenceRelation

namespace Heading

theorem whole_members (h : Heading) : ∀ member ∈ h.members, member.2.Whole := by
  simp [members]

theorem ofFields?_members (h : Heading) :
    ofFields? (some (list Attribute.toJson h.attributes)) (some (list Modifier.toJson h.modifiers))
      (some (string h.keyword)) = some h := by
  simp [ofFields?]

end Heading

namespace Declaration

theorem Kind.ofName?_name (kind : Kind) : ofName? kind.name = some kind := by
  cases kind <;> decide

theorem Body.whole_members (body : Body) : ∀ member ∈ body.members, member.2.Whole := by
  cases body <;>
    simp [members, genericsJson, requirementsJson, inheritanceJson, accessorsJson]

theorem names_nodup (kind : Kind) : (Heading.names ++ Body.names kind).Nodup := by
  cases kind <;> simp [Heading.names, Body.names]

theorem kind_not_mem_names (kind : Kind) : "kind" ∉ Heading.names ++ Body.names kind := by
  cases kind <;> simp [Heading.names, Body.names]

theorem map_fst_members (d : Declaration) :
    (d.heading.members ++ d.body.members).map (·.1) = Heading.names ++ Body.names d.kind := by
  obtain ⟨heading, body⟩ := d
  cases body with
  | nominal sort => cases sort <;> rfl
  | _ => rfl

theorem ofFields?_members (d : Declaration) :
    Body.ofFields? d.kind (d.body.members.map fun member => some member.2) = some d.body := by
  obtain ⟨heading, body⟩ := d
  cases body with
  | nominal sort =>
    cases sort <;>
      simp [kind, Body.members, Body.ofFields?, Body.nominalOfFields?, genericsJson, inheritanceJson,
        requirementsJson, generics?, strings?, requirements?]
  | function name generics signature requirements =>
    simp [kind, Body.members, Body.ofFields?, genericsJson, requirementsJson, generics?, requirements?,
      FunctionSignature.inverts_ofJson? signature]
  | _ =>
    simp [kind, Body.members, Body.ofFields?, genericsJson, inheritanceJson, requirementsJson,
      accessorsJson, generics?, strings?, requirements?, parametersOf?]

@[simp] theorem whole_toJson (d : Declaration) : d.toJson.Whole := by
  rw [toJson, whole_object]
  intro member hmember
  simp only [List.cons_append, List.mem_cons, List.mem_append] at hmember
  rcases hmember with rfl | hmember | hmember
  · exact .string _
  · exact d.heading.whole_members member hmember
  · exact d.body.whole_members member hmember

@[simp] theorem inverts_ofJson? : Inverts ofJson? toJson := fun d => by
  have hkind : "kind" ∉ (d.heading.members ++ d.body.members).map (·.1) := by
    rw [d.map_fst_members]
    exact kind_not_mem_names d.kind
  have hfields : fields? (Heading.names ++ Body.names d.kind) d.toJson =
      some ((d.heading.members ++ d.body.members).map fun member => some member.2) :=
    fields?_tagged d.map_fst_members (names_nodup d.kind) (kind_not_mem_names d.kind) _
  have hdeclaration :
      ofFields? d.kind ((d.heading.members ++ d.body.members).map fun member => some member.2) = some d := by
    simp [Heading.members, ofFields?, d.heading.ofFields?_members, d.ofFields?_members]
  have htag : tagged? "kind" d.toJson = some (d.kind.name, d.toJson) := tagged?_object hkind d.kind.name
  simp only [ofJson?, htag, Kind.ofName?_name, hfields, hdeclaration, Option.bind_eq_bind, Option.bind_some]

end Declaration

namespace Extension

theorem whole_members (e : Extension) : ∀ member ∈ e.members, member.2.Whole := by
  simp [members, Heading.members, Declaration.inheritanceJson, Declaration.requirementsJson]

theorem ofJson?_tagged (e : Extension) (tag : Json) : ofJson? (object (("kind", tag) :: e.members)) = some e := by
  simp [ofJson?, members, fields?_tagged, Heading.members, Heading.names, Declaration.inheritanceJson,
    Declaration.requirementsJson, Declaration.strings?, Declaration.requirements?,
    e.heading.ofFields?_members]

end Extension

namespace Import

@[simp] theorem whole_toJson (i : Import) : i.toJson.Whole := by
  simp [toJson, Heading.members]

@[simp] theorem inverts_ofJson? : Inverts ofJson? toJson := fun i => by
  simp [ofJson?, toJson, fields?_object, Heading.members, Heading.names, i.heading.ofFields?_members]

end Import

end DocIndex
