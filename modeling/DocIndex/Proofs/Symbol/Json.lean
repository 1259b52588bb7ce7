import DocIndex.Proofs.Declaration.Json
import DocIndex.Symbol.Json

/-! # Symbols read back from JSON

A symbol is read back as what was written, provided that the numbers of its locations fit in 64 bits. -/

namespace DocIndex

open Json

/-! ### Numbers of 64 bits -/

/-- Line, column and offset fit in 64 bits. -/
structure Location.Fits (l : Location) : Prop where
  line : l.line < UInt64.size
  column : l.column < UInt64.size
  offset : l.offset < UInt64.size

/-- The location of a condition fits in 64 bits; other frames have none. -/
def Frame.Fits : Frame → Prop
  | condition c => c.block.location.Fits
  | _ => True

/-- All locations of the symbol fit in 64 bits. -/
structure Symbol.Fits (s : Symbol) : Prop where
  context : ∀ frame ∈ s.context, frame.Fits
  location : s.location.Fits

/-! ### Frames -/

namespace Branch

@[simp] theorem whole_toJson (b : Branch) : b.toJson.Whole := by
  cases b <;> simp [toJson, condition?]

@[simp] theorem inverts_ofJson? (setting : Setting) : Inverts (ofJson? setting) toJson := fun b => by
  cases b <;> simp [ofJson?, toJson, condition?, tag, member?, ofFields?]

end Branch

namespace Location

@[simp] theorem whole_toJson (l : Location) : l.toJson.Whole := by
  simp [toJson]

theorem ofJson?_toJson {l : Location} (h : l.Fits) : ofJson? l.toJson = some l := by
  simp [ofJson?, toJson, fields?_object, size?_nat h.line, size?_nat h.column, size?_nat h.offset]

end Location

namespace Container

theorem whole_members (c : Container) : ∀ member ∈ c.members, member.2.Whole := by
  simp [members, Declaration.genericsJson]

theorem ofJson?_tagged (c : Container) (tag : Json) :
    ofJson? (object (("kind", tag) :: c.members)) = some c := by
  simp [ofJson?, members, fields?_tagged, Declaration.genericsJson, Declaration.generics?,
    Declaration.Kind.ofName?_name]

end Container

theorem ConditionBlock.ofJson?_toJson {b : ConditionBlock} (h : b.location.Fits) :
    ofJson? b.toJson = some b := by
  simp [ofJson?, toJson, fields?_object, Location.ofJson?_toJson h]

theorem Condition.ofJson?_tagged {c : Condition} (h : c.block.location.Fits) (tag : Json) :
    ofJson? (object (("kind", tag) :: c.members)) = some c := by
  simp [ofJson?, members, fields?_tagged, ConditionBlock.ofJson?_toJson h,
    Branch.inverts_ofJson? .tagged c.branch]

namespace Frame

@[simp] theorem whole_toJson (frame : Frame) : frame.toJson.Whole := by
  cases frame with
  | container c => simpa [toJson] using c.whole_members
  | extension e => simpa [toJson] using e.whole_members
  | condition c => simp [toJson, Condition.members, ConditionBlock.toJson]

theorem ofJson?_toJson {frame : Frame} (h : frame.Fits) : ofJson? frame.toJson = some frame := by
  cases frame with
  | container c =>
    have hkind : "kind" ∉ c.members.map (·.1) := by
      simp [Container.members, Declaration.genericsJson]
    simp [ofJson?, toJson, tagged?_object hkind, c.ofJson?_tagged]
  | extension e =>
    have hkind : "kind" ∉ e.members.map (·.1) := by
      simp [Extension.members, Heading.members, Declaration.inheritanceJson, Declaration.requirementsJson]
    simp [ofJson?, toJson, tagged?_object hkind, e.ofJson?_tagged]
  | condition c =>
    have hkind : "kind" ∉ c.members.map (·.1) := by
      simp [Condition.members]
    simp [ofJson?, toJson, tagged?_object hkind, Condition.ofJson?_tagged h]

end Frame

namespace ParameterNote

@[simp] theorem whole_toJson (n : ParameterNote) : n.toJson.Whole := by
  simp [toJson]

@[simp] theorem inverts_ofJson? : Inverts ofJson? toJson := fun n => by
  simp [ofJson?, toJson, fields?_object]

end ParameterNote

namespace Callout

@[simp] theorem whole_toJson (c : Callout) : c.toJson.Whole := by
  simp [toJson]

@[simp] theorem inverts_ofJson? : Inverts ofJson? toJson := fun c => by
  simp [ofJson?, toJson, fields?_object]

end Callout

namespace Documentation

@[simp] theorem whole_toJson (d : Documentation) : d.toJson.Whole := by
  simp [toJson, members]

@[simp] theorem inverts_ofJson? : Inverts ofJson? toJson := fun d => by
  simp [ofJson?, toJson, members, fields?_object]

end Documentation

namespace Symbol

@[simp] theorem whole_toJson (s : Symbol) : s.toJson.Whole := by
  simp [toJson]

theorem ofJson?_toJson {s : Symbol} (h : s.Fits) : ofJson? s.toJson = some s := by
  have hcontext : list? Frame.ofJson? (list Frame.toJson s.context) = some s.context :=
    list?_list_of_mem fun frame hframe => Frame.ofJson?_toJson (h.context frame hframe)
  simp [ofJson?, toJson, fields?_object, ofFields?, nameless?, Declaration.Kind.ofName?_name,
    Declaration.inverts_ofJson? s.declaration, hcontext, Documentation.inverts_ofJson? s.documentation,
    Location.ofJson?_toJson h.location]

end Symbol

/-! ### What is read fits in 64 bits -/

theorem Location.fits_of_ofJson? {value : Json} {l : Location} (h : ofJson? value = some l) : l.Fits := by
  unfold ofJson? at h
  split at h
  · simp only [Option.pure_def, Option.bind_eq_bind, Option.bind_eq_some_iff, Option.some.injEq] at h
    obtain ⟨file, -, line, hline, column, hcolumn, offset, hoffset, rfl⟩ := h
    obtain ⟨_, hline⟩ := exists_of_required hline
    obtain ⟨_, hcolumn⟩ := exists_of_required hcolumn
    obtain ⟨_, hoffset⟩ := exists_of_required hoffset
    exact ⟨lt_of_size? hline, lt_of_size? hcolumn, lt_of_size? hoffset⟩
  · cases h

theorem ConditionBlock.fits_of_ofJson? {value : Json} {b : ConditionBlock}
    (h : ofJson? value = some b) : b.location.Fits := by
  unfold ofJson? at h
  split at h
  · simp only [Option.pure_def, Option.bind_eq_bind, Option.bind_eq_some_iff, Option.some.injEq] at h
    obtain ⟨branches, -, location, hlocation, rfl⟩ := h
    obtain ⟨_, hlocation⟩ := exists_of_required hlocation
    exact Location.fits_of_ofJson? hlocation
  · cases h

theorem Condition.fits_of_ofJson? {value : Json} {c : Condition} (h : ofJson? value = some c) :
    c.block.location.Fits := by
  unfold ofJson? at h
  split at h
  · simp only [Option.pure_def, Option.bind_eq_bind, Option.bind_eq_some_iff, Option.some.injEq] at h
    obtain ⟨block, hblock, branch, -, rfl⟩ := h
    obtain ⟨_, hblock⟩ := exists_of_required hblock
    exact ConditionBlock.fits_of_ofJson? hblock
  · cases h

theorem Frame.fits_of_ofJson? {value : Json} {frame : Frame} (h : ofJson? value = some frame) :
    frame.Fits := by
  cases frame with
  | container c => trivial
  | extension e => trivial
  | condition c =>
    unfold ofJson? at h
    simp only [Option.bind_eq_bind, Option.bind_eq_some_iff] at h
    obtain ⟨⟨tag, record⟩, -, h⟩ := h
    split at h <;> simp at h
    exact Condition.fits_of_ofJson? h

theorem Symbol.fits_of_ofJson? {value : Json} {s : Symbol} (h : ofJson? value = some s) : s.Fits := by
  unfold ofJson? at h
  split at h
  · simp only [ofFields?, Option.pure_def, Option.bind_eq_bind, Option.bind_eq_some_iff, Option.some.injEq] at h
    obtain ⟨-, -, kind, -, -, -, declaration, -, context, hcontext, documentation, -, location, hlocation,
      rfl⟩ := h
    obtain ⟨_, hcontext⟩ := exists_of_required hcontext
    obtain ⟨_, hlocation⟩ := exists_of_required hlocation
    refine ⟨fun frame hframe => ?_, Location.fits_of_ofJson? hlocation⟩
    obtain ⟨_, hframe⟩ := exists_of_mem_list? hcontext frame hframe
    exact Frame.fits_of_ofJson? hframe
  · cases h

end DocIndex
