import DocIndex.Json.Record
import DocIndex.Proofs.Json.Reread

/-! # Fields read back

What the writers of fields and records write, their readers read: a record has each of its fields under
its name (`Json.fields?_object`), and a list or an optional value is read back if its parts are. -/

namespace DocIndex.Json

/-! ### Whole values -/

attribute [simp] Whole.null Whole.bool Whole.int Whole.string

@[simp] theorem whole_nat (n : Nat) : (nat n).Whole := .int n

@[simp] theorem whole_object {members : List (String × Json)} :
    (object members).Whole ↔ ∀ member ∈ members, member.2.Whole :=
  ⟨fun h => by cases h; assumption, .object⟩

@[simp] theorem whole_list {α : Type} {write : α → Json} {values : List α} :
    (list write values).Whole ↔ ∀ value ∈ values, (write value).Whole := by
  refine ⟨fun h => ?_, fun h => .array (by simpa using h)⟩
  cases h with
  | array h => simpa using h

@[simp] theorem whole_option {α : Type} {write : α → Json} {value : Option α} :
    (option write value).Whole ↔ ∀ a ∈ value, (write a).Whole := by
  cases value <;> simp [option]

/-! ### Fields -/

theorem member?_cons (key name : String) (value : Json) (rest : List (String × Json)) :
    member? key ((name, value) :: rest) =
      (member? key rest).or (if name = key then some value else none) := by
  rw [member?]
  cases member? key rest <;> rfl

theorem member?_eq_none {key : String} {members : List (String × Json)}
    (h : key ∉ members.map (·.1)) : member? key members = none := by
  induction members with
  | nil => rfl
  | cons member rest ih =>
    rw [List.map_cons, List.mem_cons, not_or] at h
    rw [member?_cons, ih h.2, if_neg (Ne.symm h.1), Option.none_or]

theorem member?_cons_self {key : String} {rest : List (String × Json)} (h : key ∉ rest.map (·.1))
    (value : Json) : member? key ((key, value) :: rest) = some value := by
  rw [member?_cons, member?_eq_none h, if_pos rfl, Option.none_or]

theorem member?_cons_of_ne {key name : String} (h : name ≠ key) (value : Json)
    (rest : List (String × Json)) : member? key ((name, value) :: rest) = member? key rest := by
  rw [member?_cons, if_neg h, Option.or_none]

theorem fields?_cons_of_not_mem {names : List String} {key : String} (h : key ∉ names) (value : Json)
    (rest : List (String × Json)) :
    fields? names (object ((key, value) :: rest)) = fields? names (object rest) := by
  have hfields : ∀ name ∈ names, member? name ((key, value) :: rest) = member? name rest :=
    fun name hname => member?_cons_of_ne (fun heq : key = name => h (heq ▸ hname)) value rest
  rw [fields?, fields?, List.map_congr_left hfields]

/-- A record that is written with its fields by name has them all. -/
theorem fields?_object {names : List String} {members : List (String × Json)}
    (hnames : members.map (·.1) = names) (hdistinct : names.Nodup) :
    fields? names (object members) = some (members.map fun member => some member.2) := by
  subst hnames
  induction members with
  | nil => rfl
  | cons member rest ih =>
    obtain ⟨key, value⟩ := member
    obtain ⟨hkey, hdistinct⟩ := List.nodup_cons.mp hdistinct
    have hrest := (fields?_cons_of_not_mem hkey value rest).trans (ih hdistinct)
    simp only [fields?, Option.some.injEq] at hrest ⊢
    rw [List.map_cons, List.map_cons, List.map_cons, member?_cons_self hkey, hrest]

theorem fields?_tagged {names : List String} {members : List (String × Json)}
    (hnames : members.map (·.1) = names) (hdistinct : names.Nodup) {key : String} (hkey : key ∉ names)
    (tag : Json) :
    fields? names (object ((key, tag) :: members)) = some (members.map fun member => some member.2) :=
  (fields?_cons_of_not_mem hkey tag members).trans (fields?_object hnames hdistinct)

theorem tagged?_object {key : String} {members : List (String × Json)} (h : key ∉ members.map (·.1))
    (tag : String) :
    tagged? key (object ((key, string tag) :: members)) =
      some (tag, object ((key, string tag) :: members)) := by
  rw [tagged?, member?_cons_self h]

/-! ### Readers and writers -/

/-- The reader reads every value that the writer writes. -/
def Inverts {α : Type} (read : Json → Option α) (write : α → Json) : Prop :=
  ∀ value, read (write value) = some value

@[simp] theorem string?_string (text : String) : string? (string text) = some text := rfl

@[simp] theorem bool?_bool (value : Bool) : bool? (bool value) = some value := rfl

@[simp] theorem inverts_string? : Inverts string? string := string?_string

@[simp] theorem inverts_bool? : Inverts bool? bool := bool?_bool

theorem size?_nat {n : Nat} (h : n < UInt64.size) : size? (nat n) = some n :=
  if_pos h

section

variable {α : Type} {read : Json → Option α} {write : α → Json}

@[simp] theorem required_some (value : Json) : required read (some value) = read value := rfl

@[simp] theorem choice?_string (setting : Setting) (ofName? : String → Option α) (name : String) :
    choice? setting ofName? (string name) = ofName? name := rfl

theorem list?_list_of_mem {values : List α} (h : ∀ value ∈ values, read (write value) = some value) :
    list? read (list write values) = some values := by
  change (values.map write).mapM read = some values
  induction values with
  | nil => rfl
  | cons value rest ih =>
    obtain ⟨hvalue, hrest⟩ := List.forall_mem_cons.mp h
    simp [hvalue, ih hrest]

@[simp] theorem list?_list (h : Inverts read write) (values : List α) :
    list? read (list write values) = some values :=
  list?_list_of_mem fun value _ => h value

@[simp] theorem inverts_list? (h : Inverts read write) : Inverts (list? read) (list write) :=
  list?_list h

@[simp] theorem list_ne_null (values : List α) : list write values ≠ null :=
  Json.noConfusion

@[simp] theorem optional_option (hnull : ∀ value, write value ≠ null) (h : Inverts read write)
    (value : Option α) : optional read (some (option write value)) = some value := by
  cases value with
  | none => rfl
  | some value =>
    rw [option, optional, h value]
    · rfl
    · exact hnull value

/-! ### What was read -/

theorem exists_of_required {field : Option Json} {a : α} (h : required read field = some a) :
    ∃ value, read value = some a := by
  cases field with
  | none => cases h
  | some value => exact ⟨value, h⟩

theorem exists_of_mem_list? {value : Json} {values : List α} (h : list? read value = some values) :
    ∀ a ∈ values, ∃ item, read item = some a := by
  cases value with
  | array items =>
    rw [list?] at h
    induction items generalizing values with
    | nil =>
      cases h
      simp
    | cons item items ih =>
      simp only [List.mapM_cons, Option.pure_def, Option.bind_eq_bind, Option.bind_eq_some_iff,
        Option.some.injEq] at h
      obtain ⟨a, hitem, rest, hrest, rfl⟩ := h
      exact List.forall_mem_cons.mpr ⟨⟨item, hitem⟩, ih hrest⟩
  | _ => cases h

end

theorem lt_of_size? {value : Json} {n : Nat} (h : size? value = some n) : n < UInt64.size := by
  unfold size? at h
  split at h
  · next m =>
    split at h
    · next hlt =>
      cases h
      exact hlt
    · cases h
  · cases h

end DocIndex.Json
