import DocIndex.Json.Value

/-! # Records in JSON

A record is written as an object with its fields by name. It is read from such an object, whatever
other members it has, and also from an array with just its fields in order. A field that may be
missing reads as `none` when it is absent or `null`.

A record that comes in several shapes has a tag, and what it holds is read a little more freely than
a value that stands on its own (`Setting`). -/

namespace DocIndex.Json

/-- Where a value stands: on its own, or somewhere inside a record with a tag. -/
inductive Setting where
  | plain
  | tagged
  deriving DecidableEq, Repr, Inhabited

/-- What a record has for each of the named fields. -/
def fields? (names : List String) : Json → Option (List (Option Json))
  | object members => some (names.map (member? · members))
  | array items => if items.length = names.length then some (items.map some) else none
  | _ => none

/-- The tag of a record that comes in several shapes, and the rest of the record. The tag is the
member with the given key, or the first item of an array. -/
def tagged? (key : String) : Json → Option (String × Json)
  | object members =>
    match member? key members with
    | some (string tag) => some (tag, object members)
    | _ => none
  | array (string tag :: items) => some (tag, array items)
  | _ => none

/-- Reads a field that must be there. -/
def required {α : Type} (read : Json → Option α) : Option Json → Option α
  | some value => read value
  | none => none

/-- Reads a field that may be missing. -/
def optional {α : Type} (read : Json → Option α) : Option Json → Option (Option α)
  | none | some null => some none
  | some value => (read value).map some

def string? : Json → Option String
  | string value => some value
  | _ => none

def bool? : Json → Option Bool
  | bool value => some value
  | _ => none

/-- A natural number that fits in 64 bits. -/
def size? : Json → Option Nat
  | int (.ofNat n) => if n < UInt64.size then some n else none
  | _ => none

def list? {α : Type} (read : Json → Option α) : Json → Option (List α)
  | array items => items.mapM read
  | _ => none

/-- Whether a value says nothing: `null` does, and inside a tagged record so does an empty object. -/
def isVoid : Setting → Json → Bool
  | _, null => true
  | .tagged, object [] => true
  | _, _ => false

/-- A name that stands for a value: a string, or an object with that one key and a value that says
nothing. -/
def choice? {α : Type} (setting : Setting) (ofName? : String → Option α) : Json → Option α
  | string name => ofName? name
  | object ((name, value) :: rest) =>
    if rest.all (·.1 == name) && (member? name ((name, value) :: rest)).any (isVoid setting) then
      ofName? name
    else none
  | _ => none

/-- A name in the first place of an array. Inside a tagged record its place in the list of names does
as well. -/
def leadingName? (setting : Setting) (names : List String) : Json → Option String
  | string name => some name
  | int (.ofNat n) => if setting = .tagged then names[n]? else none
  | _ => none

end DocIndex.Json
