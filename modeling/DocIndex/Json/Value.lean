/-! # JSON values

A member list keeps the order in which members were written. Of members with the same key the last
one counts. -/

namespace DocIndex

/-- A JSON value. A number without fraction and exponent is an integer; any other is kept as it was
written. -/
inductive Json where
  | null
  | bool (value : Bool)
  | int (value : Int)
  | decimal (written : String)
  | string (value : String)
  | array (items : List Json)
  | object (members : List (String × Json))
  deriving Repr, Inhabited

namespace Json

/-- A natural number. -/
def nat (n : Nat) : Json := int n

/-- `null` for a missing value. -/
def option {α : Type} (write : α → Json) : Option α → Json
  | some value => write value
  | none => null

/-- An array of values. -/
def list {α : Type} (write : α → Json) (values : List α) : Json :=
  array (values.map write)

/-- The value of the last member with a given key. -/
def member? (key : String) : List (String × Json) → Option Json
  | [] => none
  | (name, value) :: rest =>
    match member? key rest with
    | some found => some found
    | none => if name = key then some value else none

end Json

end DocIndex
