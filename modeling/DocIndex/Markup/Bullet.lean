import DocIndex.Markup.Body

/-! # Bullets with a label

A line such as `- Returns: the sum` starts a field. The label says which: a word alone, or the word
`Parameter` and a name. Upper and lower case do not matter in the words with a meaning. -/

namespace DocIndex.Markup

open Text

/-- A list item that starts with a label and a colon. -/
structure Bullet where
  indent : Nat
  label : List Char
  body : List Char
  deriving DecidableEq, Repr

/-- Whether a character marks a list item. -/
def isBulletMark (c : Char) : Bool :=
  c == '-' || c == '*' || c == '+'

/-- Whether a character may stand in a label after the first. -/
def isLabelChar (c : Char) : Bool :=
  c.isAlphanum || c == '_' || isIndent c

/-- The text without spaces and tabs at its end. -/
def trimIndentEnd (text : List Char) : List Char :=
  (text.reverse.dropWhile isIndent).reverse

/-- Reads the text after the mark of a list item: at least one space or tab, a label that starts with
a letter, a colon and the body. -/
def Bullet.ofItem? (indent : Nat) (item : List Char) : Option Bullet :=
  if (item.head?.map isIndent).getD false then
    match cutAt ':' (item.dropWhile isIndent) with
    | some (label, body) =>
      if (label.head?.map Char.isAlpha).getD false && label.all isLabelChar then
        some ⟨indent, trimIndentEnd label, trim body⟩
      else none
    | none => none
  else none

/-- Reads a line as a list item with a label. -/
def Bullet.ofLine? (line : Line) : Option Bullet :=
  match line.dropWhile isIndent with
  | mark :: item => if isBulletMark mark then ofItem? (indentWidth line) item else none
  | [] => none

/-- What a label announces. -/
inductive Field where
  | parameters
  | parameter (name : List Char)
  | returns
  | throws
  | callout (delimiter : List Char)
  deriving DecidableEq, Repr

/-- Whether a word is the given one, upper and lower case aside. -/
def isWordOf (word : List Char) (name : String) : Bool :=
  word.map Char.toLower == name.toList

/-- The field that a label announces, if it is one. -/
def Field.ofLabel? (label : List Char) : Option Field :=
  match words label with
  | [word] =>
    if isWordOf word "parameters" then some parameters
    else if isWordOf word "returns" || isWordOf word "return" then some returns
    else if isWordOf word "throws" then some throws
    else some (callout word)
  | [word, name] => if isWordOf word "parameter" then some (parameter name) else none
  | _ => none

end DocIndex.Markup
