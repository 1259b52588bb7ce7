import DocIndex.Markup.Bullet

/-! # Reading a body

The body is read line by line. Prose gathers into paragraphs, fences enclose code, and bullets with
a label start fields; a line indented deeper than the bullet of the open field continues it. -/

namespace DocIndex.Markup

open Text

/-- The field that takes continuation lines. -/
inductive FieldRef where
  | parameter (index : Nat)
  | returns
  | throws
  | callout (index : Nat)
  deriving DecidableEq, Repr

/-- A finished part of the text outside fields. -/
inductive Paragraph where
  | prose (text : String)
  | code (text : String)
  deriving DecidableEq, Repr

def Paragraph.text : Paragraph → String
  | prose text | code text => text

/-- What has been read so far. -/
structure Reader where
  documentation : Documentation := {}
  finished : List Paragraph := []
  /-- The lines of the paragraph under way. -/
  pending : List String := []
  /-- The open field and the indent of its bullet. -/
  current : Option (FieldRef × Nat) := none
  /-- The indent of the bullet of an open list of parameters. -/
  listIndent : Option Nat := none
  /-- The lines of an open block of code. -/
  code : Option (List String) := none
  deriving DecidableEq, Repr

/-- A text continued by another, with a space between them. -/
def extend (text : String) (more : List Char) : String :=
  (if text.isEmpty then text else text ++ " ") ++ String.ofList (trim more)

namespace Reader

/-- Ends the paragraph under way. -/
def endParagraph (reader : Reader) : Reader :=
  if reader.pending.isEmpty then reader
  else
    { reader with
      finished := reader.finished ++ [.prose (" ".intercalate reader.pending)]
      pending := [] }

/-- Adds text to a field. -/
def addTo (reader : Reader) (ref : FieldRef) (text : List Char) : Reader :=
  let d := reader.documentation
  match ref with
  | .parameter index =>
    { reader with
      documentation.parameters := d.parameters.modify index fun note =>
        { note with description := extend note.description text } }
  | .callout index =>
    { reader with
      documentation.callouts := d.callouts.modify index fun callout =>
        { callout with content := extend callout.content text } }
  | .returns => { reader with documentation.returns := some (extend (d.returns.getD "") text) }
  | .throws => { reader with documentation.throws := some (extend (d.throws.getD "") text) }

/-- Starts the note on a parameter. -/
def openParameter (reader : Reader) (indent : Nat) (name description : List Char) : Reader :=
  let parameters := reader.documentation.parameters
  { reader with
    documentation.parameters :=
      parameters ++ [⟨String.ofList name, String.ofList description⟩]
    current := some (.parameter parameters.length, indent) }

/-- Starts the field that a bullet announces. -/
def openField (reader : Reader) (bullet : Bullet) : Field → Reader
  | .parameters => { reader with listIndent := some bullet.indent, current := none }
  | .parameter name => reader.openParameter bullet.indent name bullet.body
  | .returns =>
    let reader := { reader with documentation.returns := some "" }
    { reader.addTo .returns bullet.body with current := some (.returns, bullet.indent) }
  | .throws =>
    let reader := { reader with documentation.throws := some "" }
    { reader.addTo .throws bullet.body with current := some (.throws, bullet.indent) }
  | .callout delimiter =>
    let callouts := reader.documentation.callouts
    { reader with
      documentation.callouts :=
        callouts ++ [⟨String.ofList delimiter, String.ofList bullet.body⟩]
      current := some (.callout callouts.length, bullet.indent) }

/-- Whether a bullet is an item of the open list of parameters. -/
def listHolds (reader : Reader) (indent : Nat) : Bool :=
  reader.listIndent.any (· < indent)

/-- Reads a line of text that starts no field. -/
def readText (reader : Reader) (line : Line) : Reader :=
  let indent := indentWidth line
  match reader.current.filter (·.2 < indent) with
  | some (ref, _) => reader.addTo ref line
  | none =>
    { reader with
      current := none
      listIndent := reader.listIndent.filter (· < indent)
      pending := reader.pending ++ [String.ofList (trim line)] }

/-- Reads a list item with a label. In an open list of parameters a deeper item is a parameter, with
the whole label as its name; any other closes the list. A label that announces no field leaves the
line ordinary text. -/
def readBullet (reader : Reader) (line : Line) (bullet : Bullet) : Reader :=
  if reader.listHolds bullet.indent then
    reader.endParagraph.openParameter bullet.indent bullet.label bullet.body
  else
    let reader := { reader with listIndent := none }
    match Field.ofLabel? bullet.label with
    | some field => reader.endParagraph.openField bullet field
    | none => reader.readText line

/-- Reads a line outside code. A blank line ends the paragraph and the field. -/
def readLine (reader : Reader) (line : Line) : Reader :=
  if isBlankText line then { reader.endParagraph with current := none }
  else
    match Bullet.ofLine? line with
    | some bullet => reader.readBullet line bullet
    | none => reader.readText line

end Reader

/-- Whether a line opens or closes a block of code. -/
def isFence (line : Line) : Bool :=
  let text := trimStart line
  ['\x60', '\x60', '\x60'].isPrefixOf text || "~~~".toList.isPrefixOf text

/-- A block of code from its lines. -/
def codeBlock (lines : List String) : Paragraph :=
  .code ("\n".intercalate lines)

namespace Reader

/-- Reads a line. Lines of code are kept as they are, fences included. -/
def step (reader : Reader) (line : Line) : Reader :=
  match reader.code with
  | some lines =>
    let lines := lines ++ [String.ofList line]
    if isFence line then
      { reader with finished := reader.finished ++ [codeBlock lines], code := none }
    else { reader with code := some lines }
  | none =>
    if isFence line then { reader.endParagraph with current := none, code := some [String.ofList line] }
    else reader.readLine line

/-- Ends the block of code under way. -/
def endCode (reader : Reader) : Reader :=
  match reader.code with
  | some lines => { reader with finished := reader.finished ++ [codeBlock lines], code := none }
  | none => reader

/-- What was read. The first paragraph is the summary, unless it is code. -/
def result (reader : Reader) : Documentation :=
  let reader := reader.endCode.endParagraph
  match reader.finished with
  | .prose summary :: rest =>
    { reader.documentation with summary := some summary, discussion := rest.map (·.text) }
  | parts => { reader.documentation with discussion := parts.map (·.text) }

end Reader

/-- Reads the lines of a body. -/
def readBody (lines : List Line) : Documentation :=
  (lines.foldl Reader.step {}).result

/-- Reads a comment in Swift markup. -/
def read : Dialect := fun comment =>
  match body comment.toList with
  | .error error => .error error
  | .ok lines =>
    let documentation := readBody lines
    if documentation.isEmpty then .error .empty else .ok documentation

end DocIndex.Markup
