import DocIndex.Declaration.Attribute
import DocIndex.Text.Character

/-! # Parameters

Parameters of functions, initializers and subscripts, and the values that an enumeration case
carries, which have the same form. -/

namespace DocIndex

open Text

/-- A parameter or an associated value. -/
structure Parameter where
  attributes : List Attribute := []
  firstName : Option String := none
  secondName : Option String := none
  type : Option String := none
  variadic : Bool := false
  defaultValue : Option String := none
  deriving DecidableEq, Repr, Inhabited

namespace Parameter

/-- The name that the parameter has inside the body. -/
def localName? (p : Parameter) : Option String :=
  p.secondName <|> p.firstName

/-- The names of a parameter, those outside first. -/
def names (p : Parameter) : List String :=
  p.firstName.toList ++ p.secondName.toList

/-- The attributes and names, with spaces between them. -/
def renderStart (p : Parameter) : String :=
  " ".intercalate
    (p.attributes.map (·.render) ++
      if p.names.isEmpty then [] else [" ".intercalate p.names])

/-- The type; names before it end in a colon. -/
def renderType (p : Parameter) : String :=
  match p.type with
  | some type => if p.names.isEmpty then type else ": " ++ type
  | none => ""

def render (p : Parameter) : String :=
  p.renderStart ++ p.renderType ++ (if p.variadic then "..." else "") ++
    match p.defaultValue with
    | some value => " = " ++ value
    | none => ""

/-- The parameters in parentheses. -/
def renderAll (parameters : List Parameter) : String :=
  "(" ++ ", ".intercalate (parameters.map render) ++ ")"

/-! ### Associated values -/

/-- Whether words can be labels: one or two of them, of letters, numbers and underscores. -/
def areLabels (labels : List (List Char)) : Bool :=
  !labels.isEmpty && labels.length ≤ 2 && labels.all (·.all fun c => isAlphanumeric c || c == '_')

/-- Reads the labels and the type of an associated value. Words before a colon that cannot be labels
belong to the type. -/
def ofTyped (text : List Char) (defaultValue : Option String) : Parameter :=
  match cutTop ':' text with
  | some (before, type) =>
    let labels := words before
    if areLabels labels then
      { firstName := labels[0]?.map String.ofList
        secondName := labels[1]?.map String.ofList
        type := some (String.ofList (trim type))
        defaultValue }
    else { type := some (String.ofList text), defaultValue }
  | none => { type := some (String.ofList text), defaultValue }

/-- Reads an associated value, perhaps with a default after an equal sign. -/
def ofElement (element : List Char) : Parameter :=
  match cutTop '=' element with
  | some (typed, value) => ofTyped (trim typed) (some (String.ofList (trim value)))
  | none => ofTyped element none

/-- What stands between the parentheses around a text, and the text itself if there are none. -/
def insideParentheses (text : List Char) : List Char :=
  match trim text with
  | '(' :: rest => if rest.getLast? = some ')' then rest.dropLast else text
  | _ => text

/-- Reads the associated values of an enumeration case. -/
def parseAssociated (text : List Char) : List Parameter :=
  (splitTop ',' (insideParentheses text)).map ofElement

end Parameter

end DocIndex
