import DocIndex.Markup.Reader
import DocIndex.Proofs.Markup.LineComment

/-! # Articles

An article is what a well-kept documentation comment says: a summary, paragraphs of discussion, and fields.
It is made of lines that cannot be taken for anything else, so its text can be laid out line by line
(`Article.lines`), with parameters one by one or in lists. `Article.documentation` is what the text means. -/

namespace DocIndex.Markup

open Text

/-! ### Lines and words -/

/-- Some text on one line, without blanks around it. -/
structure TextLine where
  text : Line
  nonempty : text ≠ []
  single : '\n' ∉ text
  trimmed : Trimmed text

/-- A line of prose, which opens neither a block of code nor a list item. -/
structure PlainLine extends TextLine where
  noFence : ¬['\x60', '\x60', '\x60'] <+: text ∧ ¬['~', '~', '~'] <+: text
  noItem : ∀ mark ∈ ['-', '*', '+'], text.head? ≠ some mark

/-- A letter, and more letters, digits and underscores. -/
structure Word where
  first : Char
  rest : List Char
  letter : first.isAlpha = true
  others : ∀ c ∈ rest, c.isAlphanum = true ∨ c = '_'

def Word.text (word : Word) : List Char :=
  word.first :: word.rest

/-- A word that announces no field of its own, in upper or lower case. -/
structure Delimiter extends Word where
  unreserved : ∀ name ∈ ["parameters", "returns", "return", "throws"],
    toWord.text.map Char.toLower ≠ name.toList

/-- Lines as one text, with spaces in place of the line ends. -/
def joined (lines : List Line) : String :=
  " ".intercalate (lines.map String.ofList)

/-! ### Prose -/

/-- The lines of a paragraph, at least one. -/
structure Prose where
  first : PlainLine
  more : List PlainLine

def Prose.lines (prose : Prose) : List Line :=
  (prose.first :: prose.more).map (·.text)

def Prose.text (prose : Prose) : String :=
  joined prose.lines

/-! ### Fields -/

/-- What a field is about. -/
inductive Topic where
  | parameter (name : Word)
  | returns
  | throws
  | callout (delimiter : Delimiter)

/-- The label of the field of a topic. -/
def Topic.label : Topic → List Char
  | parameter name => "Parameter ".toList ++ name.text
  | returns => "Returns".toList
  | throws => "Throws".toList
  | callout delimiter => delimiter.text

/-- A line that continues a field, indented deeper than the bullet of the field. -/
structure Continuation (bullet : Nat) where
  indent : List Char
  indented : ∀ c ∈ indent, isIndent c = true
  deeper : bullet < indent.length
  line : PlainLine

def Continuation.text {bullet : Nat} (continuation : Continuation bullet) : Line :=
  continuation.indent ++ continuation.line.text

/-- A list item with a label. -/
def bulletLine (indent : Nat) (label text : List Char) : Line :=
  List.replicate indent ' ' ++ '-' :: ' ' :: (label ++ ':' :: ' ' :: text)

/-- The text of a field whose bullet has a given indent. -/
structure Note (bullet : Nat) where
  first : TextLine
  more : List (Continuation bullet)

namespace Note

variable {bullet : Nat}

def text (note : Note bullet) : String :=
  joined (note.first.text :: note.more.map (·.line.text))

/-- The lines of a field with a given label. -/
def lines (label : List Char) (note : Note bullet) : List Line :=
  bulletLine bullet label note.first.text :: note.more.map (·.text)

end Note

/-- A field on its own, or a list of parameters. -/
inductive Section where
  | field (topic : Topic) (note : Note 0)
  | parameters (items : List (Word × Note 2))

namespace Section

def lines : Section → List Line
  | field topic note => note.lines topic.label
  | parameters items => "- Parameters:".toList :: items.flatMap fun (name, note) => note.lines name.text

/-- The topics of a section with the texts on them. -/
def entries : Section → List (Topic × String)
  | field topic note => [(topic, note.text)]
  | parameters items => items.map fun (name, note) => (.parameter name, note.text)

end Section

def Topic.parameter? : Topic × String → Option ParameterNote
  | (parameter name, text) => some ⟨String.ofList name.text, text⟩
  | _ => none

def Topic.returns? : Topic × String → Option String
  | (returns, text) => some text
  | _ => none

def Topic.throws? : Topic × String → Option String
  | (throws, text) => some text
  | _ => none

def Topic.callout? : Topic × String → Option Callout
  | (callout delimiter, text) => some ⟨String.ofList delimiter.text, text⟩
  | _ => none

/-! ### Articles -/

structure Article where
  summary : Prose
  discussion : List Prose
  sections : List Section

namespace Article

/-- The article as the lines of a body: a blank line before each paragraph but the summary, and one before
the fields. -/
def lines (article : Article) : List Line :=
  article.summary.lines ++ (article.discussion.flatMap fun prose => [] :: prose.lines) ++
    [] :: article.sections.flatMap Section.lines

def entries (article : Article) : List (Topic × String) :=
  article.sections.flatMap Section.entries

/-- What the article says. Of two fields about the result, or about errors, the later one counts. -/
def documentation (article : Article) : Documentation where
  summary := some article.summary.text
  discussion := article.discussion.map Prose.text
  parameters := article.entries.filterMap Topic.parameter?
  returns := (article.entries.filterMap Topic.returns?).getLast?
  throws := (article.entries.filterMap Topic.throws?).getLast?
  callouts := article.entries.filterMap Topic.callout?

example :
    let line (text : Line) (h : text ≠ [] ∧ '\n' ∉ text ∧ Trimmed text) : TextLine :=
      ⟨text, h.1, h.2.1, h.2.2⟩
    let adds : PlainLine := ⟨line "Adds.".toList (by decide), by decide, by simp [line]⟩
    let more : PlainLine := ⟨line "not zero.".toList (by decide), by decide, by simp [line]⟩
    let note : Note 2 :=
      ⟨line "A number,".toList (by decide), [⟨"    ".toList, by simp [isIndent], by decide, more⟩]⟩
    let article : Article := ⟨⟨adds, []⟩, [], [.parameters [(⟨'x', [], by decide, by simp⟩, note)]]⟩
    article.lines.map String.ofList =
        ["Adds.", "", "- Parameters:", "  - x: A number,", "    not zero."] ∧
      article.documentation = { summary := some "Adds.", parameters := [⟨"x", "A number, not zero."⟩] } := by
  decide +kernel

end Article

end DocIndex.Markup
