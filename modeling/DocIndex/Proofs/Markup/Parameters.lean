import DocIndex.Proofs.Markup.Current
import DocIndex.Proofs.Markup.Layout
import DocIndex.Proofs.Markup.Reread

/-! # Two spellings of parameters

Parameters can be described in fields of their own, or as items of a list. A field takes every name, but an item
only one that starts with a letter: one that starts with an underscore is no bullet, and becomes a paragraph of
the discussion. So the spellings agree exactly if no name starts with an underscore (`read_spellings`). -/

namespace DocIndex.Markup

open Text

/-- A letter or an underscore, and more letters, digits and underscores. -/
structure Identifier where
  first : Char
  rest : List Char
  start : first.isAlpha = true ∨ first = '_'
  others : ∀ c ∈ rest, c.isAlphanum = true ∨ c = '_'

def Identifier.text (name : Identifier) : List Char :=
  name.first :: name.rest

/-- A parameter with its description, which is on one line. -/
structure Entry where
  name : Identifier
  description : TextLine

namespace Entry

def note (entry : Entry) : ParameterNote :=
  ⟨String.ofList entry.name.text, String.ofList entry.description.text⟩

def field (entry : Entry) : Line :=
  bulletLine 0 ("Parameter ".toList ++ entry.name.text) entry.description.text

def item (entry : Entry) : Line :=
  bulletLine 2 entry.name.text entry.description.text

/-- Whether the item of the entry is a bullet. -/
def isListed (entry : Entry) : Bool :=
  entry.name.first.isAlpha

end Entry

/-- A line that says something and starts neither a field nor code. -/
structure SummaryLine where
  text : Line
  nonblank : isBlankText text = false
  noFence : isFence text = false
  noBullet : Bullet.ofLine? text = none

/-- A summary, blank lines, and the fields of the parameters. -/
def singly (summary : SummaryLine) (gap : Nat) (entries : List Entry) : List Line :=
  summary.text :: (List.replicate gap [] ++ entries.map Entry.field)

/-- A summary, blank lines, and the parameters in a list. -/
def listed (summary : SummaryLine) (gap : Nat) (entries : List Entry) : List Line :=
  summary.text :: (List.replicate gap [] ++ "- Parameters:".toList :: entries.map Entry.item)

/-- The paragraph that some lines come to, if there are any. -/
def paragraph (lines : List String) : List String :=
  if lines.isEmpty then [] else [" ".intercalate lines]

/-- The paragraphs that the items of a list come to that are no bullets, where the lines of one are under way. -/
def asides : List String → List Entry → List String
  | pending, [] => paragraph pending
  | pending, entry :: rest =>
    if entry.isListed then paragraph pending ++ asides [] rest
    else asides (pending ++ [String.ofList (trim entry.item)]) rest

/-! ### Blanks at the end of the summary -/

theorem Bullet.isSome_ofItem?_append (width other : Nat) {item : List Char}
    (h : (Bullet.ofItem? width item).isSome = true) (pad : List Char) :
    (Bullet.ofItem? other (item ++ pad)).isSome = true := by
  unfold ofItem? at h ⊢
  split at h
  next hgap =>
    have hhead : (item ++ pad).head? = item.head? := by
      cases item with
      | nil => cases hgap
      | cons c rest => rfl
    rw [hhead, if_pos hgap]
    split at h
    next label text hcut =>
      obtain ⟨hitem, hcolon⟩ := cutAt_eq_some_iff.mp hcut
      have hdrop : (item ++ pad).dropWhile isIndent = label ++ ':' :: (text ++ pad) := by
        simp [List.dropWhile_append, hitem]
      rw [hdrop, cutAt_append hcolon]
      split at h
      next hlabel => simp [hlabel]
      next => cases h
    next => cases h
  next => cases h

theorem Bullet.isSome_ofLine?_append {line : Line} (h : (Bullet.ofLine? line).isSome = true) (pad : Line) :
    (Bullet.ofLine? (line ++ pad)).isSome = true := by
  rw [ofLine?] at h
  split at h
  next mark item hline =>
    have hdrop : (line ++ pad).dropWhile isIndent = mark :: (item ++ pad) := by
      simp [List.dropWhile_append, hline]
    rw [ofLine?, hdrop]
    split at h
    next hmark => simpa [hmark] using isSome_ofItem?_append _ _ h pad
    next => cases h
  next => cases h

namespace SummaryLine

variable (summary : SummaryLine)

theorem isFence_trimEnd : isFence (trimEnd summary.text) = false := by
  obtain ⟨pad, -, hline⟩ := exists_trimEnd_append summary.text
  have htext : isBlankText (trimEnd summary.text) = false := isBlankText_trimEnd summary.text ▸ summary.nonblank
  have hfence := summary.noFence
  rw [← hline, isFence, trimStart_append_of_text htext, Bool.or_eq_false_iff] at hfence
  simp only [← Bool.not_eq_true, List.isPrefixOf_iff_prefix] at hfence
  rw [isFence, Bool.or_eq_false_iff]
  simp only [← Bool.not_eq_true, List.isPrefixOf_iff_prefix]
  refine ⟨fun h => hfence.1 ?_, fun h => hfence.2 ?_⟩ <;> exact h.trans (List.prefix_append _ pad)

theorem ofLine?_trimEnd : Bullet.ofLine? (trimEnd summary.text) = none := by
  obtain ⟨pad, -, hline⟩ := exists_trimEnd_append summary.text
  cases hbullet : Bullet.ofLine? (trimEnd summary.text) with
  | none => rfl
  | some bullet =>
    have hsome := Bullet.isSome_ofLine?_append (Option.isSome_of_eq_some hbullet) pad
    rw [hline, summary.noBullet] at hsome
    cases hsome

theorem step_trimEnd :
    ({} : Reader).step (trimEnd summary.text) = { pending := [String.ofList (trim summary.text)] } := by
  have htext : isBlankText (trimEnd summary.text) = false := isBlankText_trimEnd summary.text ▸ summary.nonblank
  have hstep : ({} : Reader).step (trimEnd summary.text) = ({} : Reader).readText (trimEnd summary.text) := by
    simp [Reader.step, summary.isFence_trimEnd, Reader.readLine, htext, summary.ofLine?_trimEnd]
  rw [hstep, ← trim_trimEnd summary.text]
  rfl

end SummaryLine

/-! ### The lines of a body -/

/-- Where some line has no indent, only blanks at the ends of the lines are lost. -/
theorem dedent_of_indentWidth_eq_zero {lines : List Line}
    (h : ∃ line ∈ lines, isBlankText line = false ∧ indentWidth line = 0) :
    dedent lines = dropEmptyEnds (lines.map trimEnd) := by
  obtain ⟨line, hline, htext, hwidth⟩ := h
  rw [dedent, commonIndent_eq_zero hline htext hwidth]
  refine congrArg dropEmptyEnds (List.map_congr_left fun line _ => ?_)
  rw [dedentLine, List.drop_zero]
  split
  next hblank =>
    have hend := trimEnd_append (List.all_eq_true.mp hblank) []
    exact hend.symm
  next => rfl

theorem endsInText_bulletLine (indent : Nat) (label : List Char) (text : TextLine) :
    EndsInText (bulletLine indent label text.text) := by
  have hends := text.trimmed.stop.append text.nonempty
    (List.replicate indent ' ' ++ '-' :: ' ' :: (label ++ [':', ' ']))
  simpa [bulletLine] using hends

def Reader.below (summary : SummaryLine) (gap : Nat) : Reader :=
  (List.replicate gap []).foldl Reader.step { pending := [String.ofList (trim summary.text)] }

/-- A body whose lines below the summary end in text is read as it is. -/
theorem readBody_dedent (summary : SummaryLine) (gap : Nat) {lines : List Line}
    (hends : ∀ line ∈ lines, EndsInText line)
    (hwidth : ∃ line ∈ lines, isBlankText line = false ∧ indentWidth line = 0)
    (hcode : (lines.foldl Reader.step (Reader.below summary gap)).code = none) :
    readBody (dedent (summary.text :: (List.replicate gap [] ++ lines))) =
      (lines.foldl Reader.step (Reader.below summary gap)).result := by
  have hlines : (summary.text :: (List.replicate gap [] ++ lines)).map trimEnd =
      trimEnd summary.text :: (List.replicate gap [] ++ lines) := by
    have hnil : trimEnd [] = [] := rfl
    have hsame : lines.map trimEnd = lines :=
      (List.map_congr_left fun line hline => (hends line hline).trimEnd).trans (List.map_id lines)
    rw [List.map_cons, List.map_append, List.map_replicate, hnil, hsame]
  have hne : trimEnd summary.text ≠ [] := by
    intro hnil
    have htext := isBlankText_trimEnd summary.text ▸ summary.nonblank
    rw [hnil] at htext
    cases htext
  have hread : (trimEnd summary.text :: (List.replicate gap [] ++ lines)).foldl Reader.step {} =
      lines.foldl Reader.step (Reader.below summary gap) := by
    rw [List.foldl_cons, summary.step_trimEnd, List.foldl_append, Reader.below]
  obtain ⟨line, hline, hindent⟩ := hwidth
  rw [dedent_of_indentWidth_eq_zero ⟨line, by simp [hline], hindent⟩, hlines,
    readBody_dropEmptyEnds hne (hread ▸ hcode), readBody, hread]

/-! ### Names -/

namespace Identifier

variable (name : Identifier)

theorem isAlphanum_or : ∀ c ∈ name.text, c.isAlphanum = true ∨ c = '_' := by
  intro c hc
  rcases List.mem_cons.mp hc with rfl | hc
  · exact name.start.imp_left fun hletter => by simp [Char.isAlphanum, hletter]
  · exact name.others c hc

theorem isLabelChar : ∀ c ∈ name.text, isLabelChar c = true := by
  intro c hc
  rcases name.isAlphanum_or c hc with h | h <;> simp [Markup.isLabelChar, h]

theorem isWord : IsWord name.text := by
  refine ⟨List.cons_ne_nil _ _, fun c hc => ?_⟩
  rcases name.isAlphanum_or c hc with h | rfl
  · exact isBlank_of_isAlphanum h
  · decide

end Identifier

namespace Entry

variable (entry : Entry)

theorem isLabel_field : IsLabel ("Parameter ".toList ++ entry.name.text) :=
  isLabel_parameter (List.cons_ne_nil _ _) entry.name.isLabelChar entry.name.isWord.endsInText

theorem isLabel_item (h : entry.isListed = true) : IsLabel entry.name.text :=
  ⟨⟨_, _, rfl, h⟩, entry.name.isLabelChar, entry.name.isWord.endsInText⟩

/-- The label of a bullet starts with a letter. -/
theorem ofLine?_item (h : entry.isListed = false) : Bullet.ofLine? entry.item = none := by
  have hspaces : ∀ c ∈ List.replicate 2 ' ', isIndent c = true := fun c hc => (List.mem_replicate.mp hc).2 ▸ rfl
  have hspace : ∀ c ∈ [' '], isIndent c = true := by simp [isIndent]
  have hcolon : ':' ∉ entry.name.text := fun hc => absurd (entry.name.isLabelChar ':' hc) (by decide)
  have hstart : StartsInText (entry.name.text ++ ':' :: ' ' :: entry.description.text) := fun c hc =>
    entry.name.isWord.2 c (Option.some.inj hc ▸ List.mem_cons_self)
  have hgap : (' ' :: (entry.name.text ++ ':' :: ' ' :: entry.description.text)).dropWhile isIndent =
      entry.name.text ++ ':' :: ' ' :: entry.description.text :=
    dropWhile_isIndent_append hspace hstart
  have hletter : (entry.name.text.head?.map Char.isAlpha).getD false = false := h
  rw [item, bulletLine, Bullet.ofLine?, dropWhile_isIndent_append hspaces (startsInText_dash _)]
  simp [Bullet.ofItem?, hgap, cutAt_append hcolon, hletter, isBulletMark]

end Entry

namespace Reader

/-! ### Fields -/

/-- Parameters have been noted, and the paragraph under way comes to the last of the given ones. -/
structure Noted (reader : Reader) (finished : List Paragraph) (notes : List ParameterNote) : Prop where
  documentation : reader.documentation = { parameters := notes }
  finished : reader.endParagraph.finished = finished
  code : reader.code = none

namespace Noted

variable {reader : Reader} {finished : List Paragraph} {notes : List ParameterNote}

theorem step_nil (h : reader.Noted finished notes) : (reader.step []).Noted finished notes := by
  have hpending : ({ reader.endParagraph with current := none } : Reader).pending = [] :=
    reader.endParagraph_pending
  rw [Reader.step_nil h.code]
  refine ⟨reader.endParagraph_documentation.trans h.documentation, ?_, reader.endParagraph_code.trans h.code⟩
  rw [endParagraph_of_pending_nil hpending]
  exact h.finished

theorem closeList (h : reader.Noted finished notes) (listIndent : Option Nat) :
    ({ reader with listIndent } : Reader).Noted finished notes := by
  refine ⟨h.documentation, ?_, h.code⟩
  rw [← h.finished, endParagraph, endParagraph]
  split <;> rfl

theorem step_field (h : reader.Noted finished notes) (entry : Entry) :
    (reader.step entry.field).Noted finished (notes ++ [entry.note]) := by
  let closed : Reader := { reader with listIndent := none }
  have hclosed : closed.Noted finished notes := h.closeList none
  have hstep : reader.step entry.field =
      closed.endParagraph.openParameter 0 entry.name.text entry.description.text := by
    let bullet : Bullet := ⟨0, "Parameter ".toList ++ entry.name.text, entry.description.text⟩
    have hfield : Field.ofLabel? bullet.label = some (.parameter entry.name.text) :=
      Field.ofLabel?_parameter entry.name.isWord
    rw [Entry.field, step_bulletLine h.code entry.isLabel_field]
    exact readBullet_of_field reader _ rfl hfield
  have hpending : (closed.endParagraph.openParameter 0 entry.name.text entry.description.text).pending = [] :=
    closed.endParagraph_pending
  rw [hstep]
  refine ⟨?_, ?_, closed.endParagraph_code.trans h.code⟩
  · simp [openParameter, endParagraph_documentation, hclosed.documentation, Entry.note]
  · rw [endParagraph_of_pending_nil hpending]
    exact hclosed.finished

theorem foldl_fields (entries : List Entry) : ∀ {reader : Reader} {notes : List ParameterNote},
    reader.Noted finished notes →
    ((entries.map Entry.field).foldl step reader).Noted finished (notes ++ entries.map Entry.note) := by
  induction entries with
  | nil => intro reader notes h; simpa using h
  | cons entry rest ih =>
    intro reader notes h
    have hrest := ih (h.step_field entry)
    rw [List.append_assoc] at hrest
    exact hrest

theorem result {summary : String} (h : reader.Noted [.prose summary] notes) :
    reader.result = { summary := some summary, parameters := notes } := by
  have hcode : reader.endCode = reader := by simp [endCode, h.code]
  rw [Reader.result, hcode, h.finished, endParagraph_documentation, h.documentation]
  rfl

end Noted

theorem noted_below (summary : SummaryLine) (gap : Nat) :
    (below summary gap).Noted [.prose (String.ofList (trim summary.text))] [] := by
  have hgap : ∀ (gap : Nat) {reader : Reader} {finished : List Paragraph}, reader.Noted finished [] →
      ((List.replicate gap []).foldl step reader).Noted finished [] := by
    intro gap
    induction gap with
    | zero => intro reader finished h; exact h
    | succ gap ih => intro reader finished h; exact ih h.step_nil
  exact hgap gap ⟨rfl, by simp [endParagraph], rfl⟩

/-! ### Items -/

/-- A list of parameters is open, with the given paragraphs and the lines of one more before the next item. -/
structure Listing (reader : Reader) (finished : List Paragraph) (pending : List String)
    (notes : List ParameterNote) : Prop where
  documentation : reader.documentation = { parameters := notes }
  finished : reader.finished = finished
  pending : reader.pending = pending
  code : reader.code = none
  listIndent : reader.listIndent = some 0
  current : ∀ ref indent, reader.current = some (ref, indent) → indent = 2

theorem Noted.step_header {reader : Reader} {finished : List Paragraph} {notes : List ParameterNote}
    (h : reader.Noted finished notes) :
    (reader.step "- Parameters:".toList).Listing finished [] notes := by
  let closed : Reader := { reader with listIndent := none }
  have hclosed : closed.Noted finished notes := h.closeList none
  have hbullet : Bullet.ofLine? "- Parameters:".toList = some ⟨0, "Parameters".toList, []⟩ := by decide
  have hfield : Field.ofLabel? "Parameters".toList = some .parameters := by decide
  rw [step_bullet h.code (by decide) (by decide) hbullet, readBullet_of_field reader _ rfl hfield]
  exact ⟨closed.endParagraph_documentation.trans h.documentation, hclosed.finished, closed.endParagraph_pending,
    closed.endParagraph_code.trans h.code, rfl, nofun⟩

namespace Listing

variable {reader : Reader} {finished : List Paragraph} {pending : List String} {notes : List ParameterNote}

theorem endParagraph_finished (h : reader.Listing finished pending notes) :
    reader.endParagraph.finished = finished ++ (paragraph pending).map .prose := by
  rw [endParagraph, paragraph, h.pending]
  split <;> simp [h.finished]

theorem step_listed (h : reader.Listing finished pending notes) {entry : Entry} (hentry : entry.isListed = true) :
    (reader.step entry.item).Listing (finished ++ (paragraph pending).map .prose) [] (notes ++ [entry.note]) := by
  have hlist : reader.listHolds 2 = true := by simp [listHolds, h.listIndent]
  have hstep : reader.step entry.item =
      reader.endParagraph.openParameter 2 entry.name.text entry.description.text := by
    rw [Entry.item, step_bulletLine h.code (entry.isLabel_item hentry), readBullet, if_pos hlist]
  rw [hstep]
  refine ⟨?_, h.endParagraph_finished, reader.endParagraph_pending, reader.endParagraph_code.trans h.code,
    reader.endParagraph_listIndent.trans h.listIndent, ?_⟩
  · simp [openParameter, endParagraph_documentation, h.documentation, Entry.note]
  · rintro ref indent ⟨⟩
    rfl

theorem step_aside (h : reader.Listing finished pending notes) {entry : Entry} (hentry : entry.isListed = false) :
    (reader.step entry.item).Listing finished (pending ++ [String.ofList (trim entry.item)]) notes := by
  have hspaces : ∀ c ∈ List.replicate 2 ' ', isIndent c = true := fun c hc => (List.mem_replicate.mp hc).2 ▸ rfl
  have hwidth : indentWidth entry.item = 2 := indentWidth_append hspaces (startsInText_dash _)
  have hcurrent : reader.current.filter (·.2 < indentWidth entry.item) = none := by
    rw [hwidth, Option.filter_eq_none_iff]
    rintro ⟨ref, indent⟩ hopen
    simp [h.current ref indent hopen]
  have hstep : reader.step entry.item = reader.readText entry.item := by
    have hfence : isFence entry.item = false := isFence_bulletLine ..
    have htext : isBlankText entry.item = false := isBlankText_bulletLine ..
    simp [step, h.code, hfence, readLine, htext, entry.ofLine?_item hentry]
  rw [hstep, readText, hcurrent]
  refine ⟨h.documentation, h.finished, ?_, h.code, ?_, ?_⟩
  · rw [h.pending]
  · simp [h.listIndent, hwidth]
  · rintro ref indent ⟨⟩

theorem result {summary : String} {more : List String}
    (h : reader.Listing ((summary :: more).map .prose) pending notes) :
    reader.result = { summary := some summary, discussion := more ++ paragraph pending, parameters := notes } := by
  have hcode : reader.endCode = reader := by simp [endCode, h.code]
  have htexts : ∀ texts : List String, (texts.map Paragraph.prose).map (·.text) = texts := fun texts => by
    rw [List.map_map]
    exact List.map_id texts
  rw [Reader.result, hcode, h.endParagraph_finished, endParagraph_documentation, h.documentation, ← List.map_append,
    List.cons_append, List.map_cons]
  simp only [htexts]

/-- To the end of the list, each item is noted or becomes part of a paragraph. -/
theorem foldl_items {summary : String} (entries : List Entry) :
    ∀ {reader : Reader} {more pending : List String} {notes : List ParameterNote},
      reader.Listing ((summary :: more).map .prose) pending notes →
      ((entries.map Entry.item).foldl step reader).code = none ∧
        ((entries.map Entry.item).foldl step reader).result =
          { summary := some summary
            discussion := more ++ asides pending entries
            parameters := notes ++ (entries.filter Entry.isListed).map Entry.note } := by
  induction entries with
  | nil =>
    intro reader more pending notes h
    exact ⟨h.code, by simpa [asides] using h.result⟩
  | cons entry rest ih =>
    intro reader more pending notes h
    cases hentry : entry.isListed with
    | true =>
      have hstep := h.step_listed hentry
      rw [← List.map_append, List.cons_append] at hstep
      obtain ⟨hcode, hresult⟩ := ih hstep
      exact ⟨hcode, by simpa [asides, hentry] using hresult⟩
    | false =>
      obtain ⟨hcode, hresult⟩ := ih (h.step_aside hentry)
      exact ⟨hcode, by simpa [asides, hentry] using hresult⟩

end Listing

end Reader

/-! ### Whole comments -/

theorem asides_eq_nil_iff (entries : List Entry) : ∀ pending : List String,
    asides pending entries = [] ↔ pending = [] ∧ ∀ entry ∈ entries, entry.isListed = true := by
  induction entries with
  | nil => intro pending; simp [asides, paragraph]
  | cons entry rest ih =>
    intro pending
    cases hentry : entry.isListed <;> simp [asides, hentry, ih, paragraph]

theorem Entry.isListed_iff (entry : Entry) : entry.isListed = true ↔ entry.name.first ≠ '_' := by
  constructor
  · intro h heq
    rw [isListed, heq] at h
    cases h
  · exact entry.name.start.resolve_right

theorem readBody_singly (summary : SummaryLine) (gap : Nat) {entries : List Entry} (hsome : entries ≠ []) :
    readBody (dedent (singly summary gap entries)) =
      { summary := some (String.ofList (trim summary.text)), parameters := entries.map Entry.note } := by
  have hnoted := (Reader.noted_below summary gap).foldl_fields entries
  have hends : ∀ line ∈ entries.map Entry.field, EndsInText line := by
    intro line hline
    obtain ⟨entry, -, rfl⟩ := List.mem_map.mp hline
    exact endsInText_bulletLine _ _ entry.description
  have hwidth : ∃ line ∈ entries.map Entry.field, isBlankText line = false ∧ indentWidth line = 0 := by
    obtain ⟨entry, rest, rfl⟩ := List.exists_cons_of_ne_nil hsome
    exact ⟨entry.field, List.mem_cons_self, isBlankText_bulletLine .., rfl⟩
  rw [singly, readBody_dedent summary gap hends hwidth hnoted.code, hnoted.result]
  rfl

theorem readBody_listed (summary : SummaryLine) (gap : Nat) (entries : List Entry) :
    readBody (dedent (listed summary gap entries)) =
      { summary := some (String.ofList (trim summary.text))
        discussion := asides [] entries
        parameters := (entries.filter Entry.isListed).map Entry.note } := by
  have hheader : ((Reader.below summary gap).step "- Parameters:".toList).Listing
      ([String.ofList (trim summary.text)].map .prose) [] [] := (Reader.noted_below summary gap).step_header
  obtain ⟨hcode, hresult⟩ := Reader.Listing.foldl_items entries hheader
  have hends : ∀ line ∈ "- Parameters:".toList :: entries.map Entry.item, EndsInText line := by
    rw [List.forall_mem_cons]
    refine ⟨by decide, fun line hline => ?_⟩
    obtain ⟨entry, -, rfl⟩ := List.mem_map.mp hline
    exact endsInText_bulletLine _ _ entry.description
  rw [listed, readBody_dedent summary gap hends ⟨_, List.mem_cons_self, by decide, rfl⟩ hcode]
  exact hresult

/-- Parameters in fields of their own are all noted. In a list those are noted whose names start with a letter,
and the others become paragraphs of the discussion. So the two spellings agree exactly if no name starts with an
underscore. -/
theorem read_spellings (summary : SummaryLine) (gap : Nat) (entries : List Entry) (hsome : entries ≠ [])
    (first second : Layout) (hfirst : first.Holds (singly summary gap entries))
    (hsecond : second.Holds (listed summary gap entries)) :
    let documentation : Documentation :=
      { summary := some (String.ofList (trim summary.text)), parameters := entries.map Entry.note }
    read (first.write (singly summary gap entries)) = .ok documentation ∧
      read (second.write (listed summary gap entries)) =
        .ok { documentation with
          discussion := asides [] entries
          parameters := (entries.filter Entry.isListed).map Entry.note } ∧
      (read (first.write (singly summary gap entries)) = read (second.write (listed summary gap entries)) ↔
        ∀ entry ∈ entries, entry.name.first ≠ '_') := by
  intro documentation
  have hsingly : read (first.write (singly summary gap entries)) = .ok documentation := by
    rw [read_of_body (Layout.body_write hfirst), readBody_singly summary gap hsome]
    rfl
  have hlisted : read (second.write (listed summary gap entries)) =
      .ok { documentation with
        discussion := asides [] entries
        parameters := (entries.filter Entry.isListed).map Entry.note } := by
    rw [read_of_body (Layout.body_write hsecond), readBody_listed]
    rfl
  refine ⟨hsingly, hlisted, ?_⟩
  rw [hsingly, hlisted]
  constructor
  · intro heq entry hentry
    have hasides : asides [] entries = [] := (congrArg Documentation.discussion (Except.ok.inj heq)).symm
    exact entry.isListed_iff.mp (((asides_eq_nil_iff entries []).mp hasides).2 entry hentry)
  · intro hnames
    have hall : ∀ entry ∈ entries, entry.isListed = true := fun entry hentry =>
      entry.isListed_iff.mpr (hnames entry hentry)
    rw [(asides_eq_nil_iff entries []).mpr ⟨rfl, hall⟩, List.filter_eq_self.mpr hall]

/-- Two names that start with letters, below a summary with blanks around it: behind slashes in fields of their
own, and in a bare block in a list. -/
theorem read_spellings_letters :
    let summary : SummaryLine := ⟨" Adds. ".toList, by decide, by decide, by decide⟩
    let entries : List Entry :=
      [⟨⟨'x', [], .inl rfl, fun _ hc => absurd hc List.not_mem_nil⟩,
          ⟨"A number.".toList, by decide, by decide, by decide⟩⟩,
        ⟨⟨'y', ['_', '2'], .inl rfl, by simp [Char.isAlphanum]⟩,
          ⟨"Any: other".toList, by decide, by decide, by decide⟩⟩]
    let slashes : Layout := .slashes fun _ => ⟨[], fun _ hc => absurd hc List.not_mem_nil, List.not_mem_nil⟩
    (singly summary 1 entries).map String.ofList =
        [" Adds. ", "", "- Parameter x: A number.", "- Parameter y_2: Any: other"] ∧
      (listed summary 1 entries).map String.ofList =
        [" Adds. ", "", "- Parameters:", "  - x: A number.", "  - y_2: Any: other"] ∧
      slashes.Holds (singly summary 1 entries) ∧ Layout.bare.Holds (listed summary 1 entries) ∧
      read (slashes.write (singly summary 1 entries)) = read (Layout.bare.write (listed summary 1 entries)) := by
  intro summary entries slashes
  have hsingly : singly summary 1 entries =
    [" Adds. ", "", "- Parameter x: A number.", "- Parameter y_2: Any: other"].map String.toList := by decide
  have hlisted : listed summary 1 entries =
    [" Adds. ", "", "- Parameters:", "  - x: A number.", "  - y_2: Any: other"].map String.toList := by decide
  have hslashes : slashes.Holds (singly summary 1 entries) := by
    rw [hsingly]
    exact ⟨by simp, trivial⟩
  have hbare : Layout.bare.Holds (listed summary 1 entries) := by
    rw [hlisted]
    exact ⟨by simp, by simp [List.infix_cons_iff], _, List.mem_cons_self, by decide, by decide⟩
  have hagree := (read_spellings summary 1 entries (by simp [entries]) slashes .bare hslashes hbare).2.2
  exact ⟨by rw [hsingly]; rfl, by rw [hlisted]; rfl, hslashes, hbare, hagree.mpr (by simp [entries])⟩

/-- A name that starts with an underscore is noted from a field, and lost from the parameters in a list. -/
theorem read_underscore_item :
    read "/// Adds.\n/// - Parameter _x: A number." =
        .ok { summary := some "Adds.", parameters := [⟨"_x", "A number."⟩] } ∧
      read "/// Adds.\n/// - Parameters:\n///   - _x: A number." =
        .ok { summary := some "Adds.", discussion := ["- _x: A number."] } :=
  ⟨rfl, rfl⟩

end DocIndex.Markup
