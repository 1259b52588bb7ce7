import Mathlib.Data.List.Basic
import DocIndex.Proofs.Symbol.Json

/-! # Derived fields of a symbol

The record of a symbol holds an identifier, a kind and a name beside what the symbol is made of. They are
not kept when it is read, so that altering them changes nothing, and they are right again when it is
written (`Symbol.ofJson?_altered`). -/

namespace DocIndex

open Json

/-! ### Altered members -/

namespace Json

/-- The members without those of a given key. -/
def dropMember (key : String) (members : List (String × Json)) : List (String × Json) :=
  members.filter (·.1 != key)

/-- The members with a value for a key, in place of the one before or at the end. -/
def putMember (key : String) (value : Json) : List (String × Json) → List (String × Json)
  | [] => [(key, value)]
  | (name, old) :: rest =>
    if name = key then (key, value) :: dropMember key rest else (name, old) :: putMember key value rest

theorem key_not_mem_dropMember (key : String) (members : List (String × Json)) :
    key ∉ (dropMember key members).map (·.1) := by
  simp [dropMember]

theorem member?_dropMember_of_ne {key other : String} (h : key ≠ other) (members : List (String × Json)) :
    member? other (dropMember key members) = member? other members := by
  induction members with
  | nil => rfl
  | cons member rest ih =>
    obtain ⟨name, value⟩ := member
    by_cases hname : name = key
    · subst hname
      rw [dropMember, List.filter_cons_of_neg (by simp), ← dropMember, ih, member?_cons_of_ne h]
    · rw [dropMember, List.filter_cons_of_pos (by simpa using hname), ← dropMember, member?_cons, ih,
        member?_cons]

theorem member?_putMember_self (key : String) (value : Json) (members : List (String × Json)) :
    member? key (putMember key value members) = some value := by
  induction members with
  | nil => simp [putMember, member?]
  | cons member rest ih =>
    obtain ⟨name, old⟩ := member
    rw [putMember]
    split
    · exact member?_cons_self (key_not_mem_dropMember key rest) value
    · next hname => rw [member?_cons_of_ne hname, ih]

theorem member?_putMember_of_ne {key other : String} (h : key ≠ other) (value : Json)
    (members : List (String × Json)) : member? other (putMember key value members) = member? other members := by
  induction members with
  | nil => simp [putMember, member?, h]
  | cons member rest ih =>
    obtain ⟨name, old⟩ := member
    rw [putMember]
    split
    · next hname =>
      subst hname
      rw [member?_cons_of_ne h, member?_cons_of_ne h, member?_dropMember_of_ne h]
    · rw [member?_cons, ih, member?_cons]

end Json

namespace Symbol

/-- The fields of the record of a symbol, the derived ones first. -/
def fieldNames : List String :=
  ["id", "kind", "name", "declaration", "context", "documentation", "location"]

/-- A change to what the record of a symbol derives. -/
inductive Alteration where
  | dropId
  | dropName
  | putId (text : String)
  | putName (text : String)
  | putKind (kind : Declaration.Kind)
  deriving DecidableEq, Repr

namespace Alteration

/-- The altered field. -/
def key : Alteration → String
  | dropId | putId _ => "id"
  | dropName | putName _ => "name"
  | putKind _ => "kind"

/-- What the field is to hold, if it is not to go. -/
def value? : Alteration → Option Json
  | dropId | dropName => none
  | putId text | putName text => some (string text)
  | putKind kind => some (string kind.name)

/-- Alters a record by name, or in the place of the field if it is an array, which has no field that could
go. -/
def apply (alteration : Alteration) : Json → Json
  | object members =>
    match alteration.value? with
    | some value => object (putMember alteration.key value members)
    | none => object (dropMember alteration.key members)
  | array items =>
    match alteration.value? with
    | some value => array (items.set (fieldNames.idxOf alteration.key) value)
    | none => array items
  | value => value

end Alteration

/-- A record reads as a symbol if its derived fields are of the right sort and the others read as what
the symbol is made of. -/
theorem ofJson?_eq_some_iff {value : Json} {s : Symbol} :
    ofJson? value = some s ↔ ∃ id kind name declaration context documentation location,
      fields? fieldNames value = some [id, kind, name, declaration, context, documentation, location] ∧
      nameless? id = some () ∧ (required (choice? .plain Declaration.Kind.ofName?) kind).isSome ∧
      nameless? name = some () ∧ ofFields? declaration context documentation location = some s := by
  constructor
  · intro h
    unfold ofJson? at h
    split at h
    · next id kind name declaration context documentation location hfields =>
      simp only [Option.bind_eq_bind, Option.bind_eq_some_iff] at h
      obtain ⟨⟨⟩, hid, _, hkind, ⟨⟩, hname, h⟩ := h
      exact ⟨id, kind, name, declaration, context, documentation, location, hfields, hid,
        Option.isSome_of_mem hkind, hname, h⟩
    · cases h
  · rintro ⟨id, kind, name, declaration, context, documentation, location, hfields, hid, hkind, hname, h⟩
    obtain ⟨_, hkind⟩ := Option.isSome_iff_exists.mp hkind
    rw [fieldNames] at hfields
    simp [ofJson?, hfields, hid, hkind, hname, h]

theorem ofJson?_of_altered {altered : Json} {id kind name declaration context documentation location : Option Json}
    {s : Symbol} (alteration : Alteration)
    (hfields : fields? fieldNames altered =
      some ([id, kind, name, declaration, context, documentation, location].set
        (fieldNames.idxOf alteration.key) alteration.value?))
    (hid : nameless? id = some ()) (hkind : (required (choice? .plain Declaration.Kind.ofName?) kind).isSome)
    (hname : nameless? name = some ()) (h : ofFields? declaration context documentation location = some s) :
    ofJson? altered = some s := by
  rw [ofJson?_eq_some_iff]
  cases alteration with
  | dropId => exact ⟨none, kind, name, _, _, _, _, hfields, rfl, hkind, hname, h⟩
  | dropName => exact ⟨id, kind, none, _, _, _, _, hfields, hid, hkind, rfl, h⟩
  | putId text => exact ⟨some (string text), kind, name, _, _, _, _, hfields, rfl, hkind, hname, h⟩
  | putName text => exact ⟨id, kind, some (string text), _, _, _, _, hfields, hid, hkind, rfl, h⟩
  | putKind other =>
    refine ⟨id, some (string other.name), name, _, _, _, _, hfields, hid, ?_, hname, h⟩
    simp [Declaration.Kind.ofName?_name]

/-- By name, the alteration sets a field and leaves the others. -/
theorem fields?_apply_object (alteration : Alteration) (members : List (String × Json)) :
    fields? fieldNames (alteration.apply (object members)) =
      some ((fieldNames.map (member? · members)).set (fieldNames.idxOf alteration.key) alteration.value?) := by
  cases alteration <;>
    simp [Alteration.apply, Alteration.key, Alteration.value?, fields?, fieldNames,
      member?_dropMember_of_ne, member?_eq_none (key_not_mem_dropMember _ _), member?_putMember_of_ne,
      member?_putMember_self]

theorem ofJson?_apply {value : Json} {s : Symbol} (h : ofJson? value = some s) (alteration : Alteration) :
    ofJson? (alteration.apply value) = some s := by
  obtain ⟨id, kind, name, declaration, context, documentation, location, hfields, hid, hkind, hname, hmade⟩ :=
    ofJson?_eq_some_iff.mp h
  cases value with
  | object members =>
    refine ofJson?_of_altered alteration ?_ hid hkind hname hmade
    rw [fields?_apply_object, Option.some.inj hfields]
  | array items =>
    cases hvalue : alteration.value? with
    | none => simpa [Alteration.apply, hvalue] using h
    | some value =>
      refine ofJson?_of_altered alteration ?_ hid hkind hname hmade
      rw [fields?] at hfields
      split at hfields
      · next hlength => simp [Alteration.apply, hvalue, fields?, hlength, Option.some.inj hfields]
      · cases hfields
  | _ => cases hfields

theorem ofJson?_foldl_apply {value : Json} {s : Symbol} (h : ofJson? value = some s)
    (alterations : List Alteration) :
    ofJson? (alterations.foldl (fun value alteration => alteration.apply value) value) = some s := by
  induction alterations generalizing value with
  | nil => exact h
  | cons alteration rest ih => exact ih (ofJson?_apply h alteration)

/-- Reads a record and writes it again. -/
def rewrite? (value : Json) : Option Json :=
  (ofJson? value).map toJson

theorem rewrite?_eq_some {value : Json} {s : Symbol} (h : ofJson? value = some s) :
    rewrite? value = some s.toJson := by
  rw [rewrite?, h, Option.map_some]

/-- However the derived fields of a record are altered, the record reads as the same symbol. Written
again, it has the identifier, kind and name that follow from what the symbol is made of, and it reads as
that symbol. So reading and writing a record undoes all alterations, and doing it twice is the same as
doing it once. -/
theorem ofJson?_altered (value : Json) (s : Symbol) (h : ofJson? value = some s)
    (alterations : List Alteration) :
    let altered := alterations.foldl (fun value alteration => alteration.apply value) value
    ofJson? altered = some s ∧
      (∃ members, s.toJson = object members ∧
        member? "id" members =
          some (string (Md5.hex (s.location.file ++ ":" ++ s.qualifiedName ++ ":" ++
            toString s.location.line ++ ":" ++ toString s.location.column))) ∧
        member? "kind" members = some (string s.declaration.kind.name) ∧
        member? "name" members = some (string s.declaration.name)) ∧
      ofJson? s.toJson = some s ∧
      rewrite? altered = some s.toJson ∧ rewrite? s.toJson = some s.toJson := by
  intro altered
  have haltered : ofJson? altered = some s := ofJson?_foldl_apply h alterations
  have hwritten : ofJson? s.toJson = some s := ofJson?_toJson (fits_of_ofJson? h)
  refine ⟨haltered, ⟨_, rfl, ?_, ?_, ?_⟩, hwritten, rewrite?_eq_some haltered, rewrite?_eq_some hwritten⟩
  · simp [member?, id, identity]
  · simp [member?, kind]
  · simp [member?, name]

/-- A property with another identifier and kind in its record, which it keeps no more than those put in after. -/
theorem ofJson?_altered_property :
    let declaration : Declaration := ⟨⟨[], [], "var"⟩, .property "x" none none []⟩
    let place : Location := ⟨"a.swift", 1, 5, 4⟩
    let s : Symbol := ⟨declaration, [], { summary := some "A" }, place⟩
    let value := object [("id", string "forged"), ("kind", string "class"), ("declaration", declaration.toJson),
      ("context", array []), ("documentation", s.documentation.toJson), ("location", place.toJson)]
    ofJson? value = some s ∧
      ofJson? (Alteration.apply (.putKind .function) (Alteration.apply .dropId value)) = some s ∧
      rewrite? (Alteration.apply (.putKind .function) (Alteration.apply .dropId value)) = some s.toJson := by
  intro declaration place s value
  have h : ofJson? value = some s := by decide +kernel
  obtain ⟨haltered, -, -, hrewritten, -⟩ := ofJson?_altered value s h [.dropId, .putKind .function]
  exact ⟨h, haltered, hrewritten⟩

end Symbol

end DocIndex
