/-! # Cutting a text in two

A cut gives the text before and the text after an occurrence, without the occurrence itself. -/

namespace DocIndex.Text

/-- The texts before and after the first occurrence of `part`. -/
def cut (part : List Char) : List Char → Option (List Char × List Char)
  | [] => if part.isEmpty then some ([], []) else none
  | c :: rest =>
    match part.isPrefixOf? (c :: rest) with
    | some after => some ([], after)
    | none => (cut part rest).map fun (before, after) => (c :: before, after)

/-- The texts before and after the first occurrence of the character `mark`. -/
def cutAt (mark : Char) : List Char → Option (List Char × List Char)
  | [] => none
  | c :: rest =>
    if c = mark then some ([], rest)
    else (cutAt mark rest).map fun (before, after) => (c :: before, after)

/-- The texts before and after the last occurrence of the character `mark`. -/
def cutAtLast (mark : Char) : List Char → Option (List Char × List Char)
  | [] => none
  | c :: rest =>
    match cutAtLast mark rest with
    | some (before, after) => some (c :: before, after)
    | none => if c = mark then some ([], rest) else none

/-- Whether `part` occurs in the text. -/
def hasPart (part text : List Char) : Bool :=
  (cut part text).isSome

/-- The text without `start`, if it begins with it, and the text as it is otherwise. -/
def dropStart (start text : List Char) : List Char :=
  (start.isPrefixOf? text).getD text

end DocIndex.Text
