import DocIndex.Proofs.Markup.Label

/-! # Articles read back

Reading the comment that an article is laid out in gives what the article says (`read_lineComment`). The
reader is followed line by line: prose gathers in the paragraph under way, a bullet starts a field, and the
lines below it continue it. Between two sections only the fields read so far count (`Reader.Ready`). -/

namespace DocIndex.Markup

open Text

namespace Reader

/-! ### Single lines -/

variable {reader : Reader} {documentation : Documentation} {finished : List Paragraph}

/-- Outside code a line of prose is read as text, whatever its indent. -/
theorem step_plain (hcode : reader.code = none) (line : PlainLine) {indent : Line}
    (hindent : ∀ c ∈ indent, isIndent c = true) :
    reader.step (indent ++ line.text) = reader.readText (indent ++ line.text) := by
  simp [step, hcode, line.isFence hindent, readLine, line.isBlankText, line.ofLine? hindent]

theorem step_nil (hcode : reader.code = none) :
    reader.step [] = { reader.endParagraph with current := none } := by
  have hfence : isFence [] = false := by decide
  simp [step, hcode, hfence, readLine, isBlankText]

theorem step_bullet (hcode : reader.code = none) {line : Line} (hfence : isFence line = false)
    (hblank : isBlankText line = false) {bullet : Bullet} (hbullet : Bullet.ofLine? line = some bullet) :
    reader.step line = reader.readBullet line bullet := by
  simp [step, hcode, hfence, readLine, hblank, hbullet]

theorem step_bulletLine (hcode : reader.code = none) {label : List Char} (hlabel : IsLabel label)
    (indent : Nat) (text : TextLine) :
    reader.step (bulletLine indent label text.text) =
      reader.readBullet (bulletLine indent label text.text) ⟨indent, label, text.text⟩ := by
  exact step_bullet hcode (isFence_bulletLine indent label text.text)
    (isBlankText_bulletLine indent label text.text) (Bullet.ofLine?_bulletLine indent text hlabel)

end Reader

/-! ### Fields -/

namespace Topic

/-- The documentation with one more field. -/
def addTo (text : String) (d : Documentation) : Topic → Documentation
  | parameter name => { d with parameters := d.parameters ++ [⟨String.ofList name.text, text⟩] }
  | returns => { d with returns := some text }
  | throws => { d with throws := some text }
  | callout delimiter => { d with callouts := d.callouts ++ [⟨String.ofList delimiter.text, text⟩] }

/-- Where the lines that continue a new field go. -/
def ref (d : Documentation) : Topic → FieldRef
  | parameter _ => .parameter d.parameters.length
  | returns => .returns
  | throws => .throws
  | callout _ => .callout d.callouts.length

end Topic

/-- The documentation with more fields, in order. -/
def addEntries (d : Documentation) (entries : List (Topic × String)) : Documentation :=
  entries.foldl (fun d entry => entry.1.addTo entry.2 d) d

namespace Reader

variable {reader : Reader} {documentation : Documentation} {finished : List Paragraph}

/-- The reader with a new field that has the given text so far. -/
def holding (reader : Reader) (indent : Nat) (topic : Topic) (text : String) : Reader :=
  { reader with
    documentation := topic.addTo text reader.documentation
    current := some (topic.ref reader.documentation, indent) }

theorem openField_field (reader : Reader) (indent : Nat) (label : List Char) (text : TextLine)
    (topic : Topic) :
    reader.openField ⟨indent, label, text.text⟩ topic.field =
      reader.holding indent topic (String.ofList text.text) := by
  cases topic with
  | parameter name | callout delimiter => rfl
  | returns | throws =>
    simp [openField, Topic.field, holding, Topic.addTo, Topic.ref, addTo, extend, text.trimmed.trim]

theorem modify_length_append {α : Type} (f : α → α) (last : α) : ∀ list : List α,
    (list ++ [last]).modify list.length f = list ++ [f last]
  | [] => rfl
  | a :: rest => congrArg (List.cons a) (modify_length_append f last rest)

theorem addTo_holding (reader : Reader) (indent : Nat) (topic : Topic) (text : String) (line : Line) :
    (reader.holding indent topic text).addTo (topic.ref reader.documentation) line =
      reader.holding indent topic (extend text line) := by
  cases topic with
  | parameter name | callout delimiter => simp [holding, addTo, Topic.ref, Topic.addTo, modify_length_append]
  | returns | throws => rfl

/-- A line that continues the open field adds to its text. -/
theorem step_continuation (hcode : reader.code = none) {bullet : Nat} (topic : Topic) (text : String)
    (continuation : Continuation bullet) :
    (reader.holding bullet topic text).step continuation.text =
      reader.holding bullet topic (extend text continuation.text) := by
  have hwidth : indentWidth continuation.text = continuation.indent.length :=
    indentWidth_append continuation.indented continuation.line.trimmed.start
  have hopen : ((reader.holding bullet topic text).current.filter (·.2 < indentWidth continuation.text)) =
      some (topic.ref reader.documentation, bullet) := by
    simp [holding, hwidth, continuation.deeper]
  have hholding : (reader.holding bullet topic text).code = none := hcode
  have hstep : (reader.holding bullet topic text).step continuation.text =
      (reader.holding bullet topic text).readText continuation.text :=
    step_plain hholding continuation.line continuation.indented
  rw [hstep, readText, hopen]
  exact addTo_holding reader bullet topic text continuation.text

theorem foldl_continuations (hcode : reader.code = none) {bullet : Nat} (topic : Topic) :
    ∀ (more : List (Continuation bullet)) (text : String),
      (more.map (·.text)).foldl step (reader.holding bullet topic text) =
        reader.holding bullet topic (more.foldl (fun text continuation => extend text continuation.text) text)
  | [], _ => rfl
  | continuation :: rest, text => by
    rw [List.map_cons, List.foldl_cons, step_continuation hcode, foldl_continuations hcode topic rest,
      List.foldl_cons]

end Reader

/-- Lines that continue a text are joined to it. -/
theorem foldl_extend {bullet : Nat} : ∀ (more : List (Continuation bullet)) {text : String}, text ≠ "" →
    more.foldl (fun text continuation => extend text continuation.text) text =
      " ".intercalate (text :: more.map fun continuation => String.ofList continuation.line.text)
  | [], text, _ => String.intercalate_singleton.symm
  | continuation :: rest, text, hne => by
    have htrim : trim continuation.text = continuation.line.text :=
      continuation.line.trim_indented continuation.indented
    have hextend : extend text continuation.text = text ++ " " ++ String.ofList continuation.line.text := by
      simp [extend, hne, htrim]
    have hne' : text ++ " " ++ String.ofList continuation.line.text ≠ "" := by simp
    rw [List.foldl_cons, hextend, foldl_extend rest hne', List.map_cons, String.intercalate_cons_cons,
      String.intercalate_cons_append]

namespace Reader

variable {reader : Reader} {documentation : Documentation} {finished : List Paragraph}

theorem foldl_note {bullet : Nat} (note : Note bullet) {label : List Char} (hlabel : IsLabel label)
    (topic : Topic) {opened : Reader} (hcode : reader.code = none) (hopened : opened.code = none)
    (hopen : reader.readBullet (bulletLine bullet label note.first.text) ⟨bullet, label, note.first.text⟩ =
      opened.holding bullet topic (String.ofList note.first.text)) :
    (note.lines label).foldl step reader = opened.holding bullet topic note.text := by
  have hne : String.ofList note.first.text ≠ "" := by simp [note.first.nonempty]
  rw [Note.lines, List.foldl_cons, step_bulletLine hcode hlabel, hopen, foldl_continuations hopened,
    foldl_extend note.more hne, Note.text, joined, List.map_cons, List.map_map]
  rfl

/-- Between two sections: nothing is under way but perhaps a field or a list. -/
structure Ready (reader : Reader) (documentation : Documentation) (finished : List Paragraph) : Prop where
  documentation : reader.documentation = documentation
  finished : reader.finished = finished
  pending : reader.pending = []
  code : reader.code = none

theorem Ready.endParagraph (h : reader.Ready documentation finished) : reader.endParagraph = reader := by
  simp [Reader.endParagraph, h.pending]

theorem Ready.holding (h : reader.Ready documentation finished) (indent : Nat) (topic : Topic)
    (text : String) :
    (reader.holding indent topic text).Ready (topic.addTo text documentation) finished :=
  ⟨congrArg (topic.addTo text) h.documentation, h.finished, h.pending, h.code⟩

/-- Without an indent, a bullet is no item of a list, and closes the list that is open. -/
theorem readBullet_of_field (reader : Reader) (line : Line) {bullet : Bullet} (hindent : bullet.indent = 0)
    {field : Field} (hfield : Field.ofLabel? bullet.label = some field) :
    reader.readBullet line bullet =
      ({ reader with listIndent := none } : Reader).endParagraph.openField bullet field := by
  have hlist : reader.listHolds bullet.indent = false := by simp [listHolds, hindent]
  simp [readBullet, hlist, hfield]

theorem Ready.readBullet_of_field (h : reader.Ready documentation finished) (line : Line) {bullet : Bullet}
    (hindent : bullet.indent = 0) {field : Field} (hfield : Field.ofLabel? bullet.label = some field) :
    reader.readBullet line bullet = ({ reader with listIndent := none } : Reader).openField bullet field := by
  rw [Reader.readBullet_of_field reader line hindent hfield]
  simp [Reader.endParagraph, h.pending]

theorem Ready.foldl_field (h : reader.Ready documentation finished) (topic : Topic) (note : Note 0) :
    ((note.lines topic.label).foldl step reader).Ready (topic.addTo note.text documentation) finished := by
  have hclosed : ({ reader with listIndent := none } : Reader).Ready documentation finished :=
    ⟨h.documentation, h.finished, h.pending, h.code⟩
  have hread := h.readBullet_of_field (bulletLine 0 topic.label note.first.text)
    (rfl : (⟨0, topic.label, note.first.text⟩ : Bullet).indent = 0) topic.ofLabel?_label
  rw [openField_field] at hread
  rw [foldl_note note topic.isLabel topic h.code hclosed.code hread]
  exact hclosed.holding 0 topic note.text

theorem Ready.foldl_item (h : reader.Ready documentation finished) (hlist : reader.listIndent = some 0)
    (name : Word) (note : Note 2) :
    ((note.lines name.text).foldl step reader).Ready ((Topic.parameter name).addTo note.text documentation)
        finished ∧ ((note.lines name.text).foldl step reader).listIndent = some 0 := by
  have hopen : reader.readBullet (bulletLine 2 name.text note.first.text) ⟨2, name.text, note.first.text⟩ =
      reader.holding 2 (.parameter name) (String.ofList note.first.text) := by
    -- The list that is open takes the label for the name of a parameter, whatever it says.
    have hholds : reader.listHolds 2 = true := by simp [listHolds, hlist]
    rw [readBullet, if_pos hholds, h.endParagraph]
    rfl
  rw [foldl_note note name.isLabel (.parameter name) h.code h.code hopen]
  exact ⟨h.holding 2 (.parameter name) note.text, hlist⟩

theorem Ready.step_header (h : reader.Ready documentation finished) :
    (reader.step "- Parameters:".toList).Ready documentation finished ∧
      (reader.step "- Parameters:".toList).listIndent = some 0 := by
  have hbullet : Bullet.ofLine? "- Parameters:".toList = some ⟨0, "Parameters".toList, []⟩ := by decide
  have hfield : Field.ofLabel? "Parameters".toList = some .parameters := by decide
  rw [step_bullet h.code (by decide) (by decide) hbullet, h.readBullet_of_field _ rfl hfield]
  exact ⟨⟨h.documentation, h.finished, h.pending, h.code⟩, rfl⟩

theorem Ready.foldl_items : ∀ (items : List (Word × Note 2)) {reader : Reader} {documentation : Documentation},
    reader.Ready documentation finished → reader.listIndent = some 0 →
    ((items.flatMap fun (name, note) => note.lines name.text).foldl step reader).Ready
      (addEntries documentation (Section.parameters items).entries) finished
  | [], _, _, h, _ => h
  | (name, note) :: rest, _, _, h, hlist => by
    obtain ⟨hitem, hlist⟩ := h.foldl_item hlist name note
    rw [List.flatMap_cons, List.foldl_append]
    exact foldl_items rest hitem hlist

theorem Ready.foldl_section (h : reader.Ready documentation finished) (part : Section) :
    (part.lines.foldl step reader).Ready (addEntries documentation part.entries) finished := by
  cases part with
  | field topic note => exact h.foldl_field topic note
  | parameters items =>
    obtain ⟨hready, hlist⟩ := h.step_header
    exact foldl_items items hready hlist

theorem Ready.foldl_sections : ∀ (parts : List Section) {reader : Reader} {documentation : Documentation},
    reader.Ready documentation finished →
    ((parts.flatMap Section.lines).foldl step reader).Ready
      (addEntries documentation (parts.flatMap Section.entries)) finished
  | [], _, _, h => h
  | part :: rest, _, _, h => by
    rw [List.flatMap_cons, List.foldl_append, List.flatMap_cons, addEntries, List.foldl_append]
    exact foldl_sections rest (h.foldl_section part)

/-! ### Prose -/

/-- In the prose of an article: some paragraphs are finished, and one may be under way. -/
def inProse (finished : List Paragraph) (pending : List Line) : Reader :=
  { finished, pending := pending.map String.ofList }

theorem step_prose (line : PlainLine) (pending : List Line) :
    (inProse finished pending).step line.text = inProse finished (pending ++ [line.text]) := by
  have hindent : ∀ c ∈ ([] : Line), isIndent c = true := fun _ hc => absurd hc List.not_mem_nil
  have hstep := step_plain (rfl : (inProse finished pending).code = none) line hindent
  rw [List.nil_append] at hstep
  rw [hstep]
  simp [readText, inProse, line.trimmed.trim]

theorem foldl_plain (finished : List Paragraph) : ∀ (lines : List PlainLine) (pending : List Line),
    (lines.map (·.text)).foldl step (inProse finished pending) =
      inProse finished (pending ++ lines.map (·.text))
  | [], pending => by rw [List.map_nil, List.append_nil]; rfl
  | line :: rest, pending => by
    rw [List.map_cons, List.foldl_cons, step_prose, foldl_plain finished rest, List.append_assoc]
    rfl

theorem step_nil_inProse (prose : Prose) :
    (inProse finished prose.lines).step [] = inProse (finished ++ [.prose prose.text]) [] := by
  rw [step_nil rfl]
  simp [endParagraph, inProse, Prose.lines, Prose.text, joined]

/-- Each blank line finishes the paragraph before it. -/
theorem foldl_discussion : ∀ (discussion : List Prose) (prose : Prose) (finished : List Paragraph),
    ((discussion.flatMap fun prose : Prose => [] :: prose.lines) ++ [[]]).foldl step
        (inProse finished prose.lines) =
      inProse (finished ++ (prose :: discussion).map fun prose => .prose prose.text) []
  | [], prose, finished => step_nil_inProse prose
  | next :: rest, prose, finished => by
    have hnext := foldl_plain (finished ++ [.prose prose.text]) (next.first :: next.more) []
    have ih := foldl_discussion rest next (finished ++ [.prose prose.text])
    rw [List.append_assoc] at ih
    rw [List.flatMap_cons, List.append_assoc, List.cons_append, List.foldl_cons, step_nil_inProse,
      List.foldl_append, Prose.lines, hnext]
    exact ih

/-! ### The end of a body -/

theorem Ready.result {summary : String} {rest : List Paragraph}
    (h : reader.Ready documentation (.prose summary :: rest)) :
    reader.result = { documentation with summary := some summary, discussion := rest.map (·.text) } := by
  have hcode : reader.endCode = reader := by simp [endCode, h.code]
  rw [Reader.result, hcode, h.endParagraph, h.finished, h.documentation]

theorem code_step_nil_eq_none (h : (reader.step []).code = none) : reader.code = none := by
  cases hcode : reader.code with
  | none => rfl
  | some lines =>
    have hfence : isFence [] = false := by decide
    simp [step, hcode, hfence] at h

theorem result_step_nil (hcode : reader.code = none) : (reader.step []).result = reader.result := by
  rw [step_nil hcode]
  by_cases hpending : reader.pending = [] <;>
    simp [result, endCode, endParagraph, hcode, hpending]

/-- Outside code, blank lines at the end of a body say nothing. -/
theorem result_foldl_replicate_nil : ∀ (n : Nat) (reader : Reader),
    ((List.replicate n []).foldl step reader).code = none →
    ((List.replicate n []).foldl step reader).result = reader.result
  | 0, _, _ => rfl
  | n + 1, reader, hcode => by
    -- Taken from the end: no code is open after the last line, so none was before it.
    rw [List.replicate_succ', List.foldl_append] at hcode ⊢
    have hbefore := code_step_nil_eq_none hcode
    exact (result_step_nil hbefore).trans (result_foldl_replicate_nil n reader hbefore)

end Reader

theorem dropEmptyEnds_append_replicate {first : Line} (hne : first ≠ []) (rest : List Line) :
    ∃ n, dropEmptyEnds (first :: rest) ++ List.replicate n [] = first :: rest := by
  have hstart : (first :: rest).dropWhile (·.isEmpty) = first :: rest := by
    rw [List.dropWhile_cons, if_neg (by simpa using hne)]
  -- Nothing is dropped at the start, and all that is dropped at the end is empty.
  have hempty : ∀ line ∈ (first :: rest).reverse.takeWhile (·.isEmpty), line = [] := fun line hline => by
    simpa using List.all_eq_true.mp List.all_takeWhile line hline
  have hsplit := congrArg List.reverse
    (List.takeWhile_append_dropWhile (p := fun line : Line => line.isEmpty) (l := (first :: rest).reverse))
  rw [List.reverse_append, List.reverse_reverse, List.eq_replicate_of_mem hempty,
    List.reverse_replicate] at hsplit
  refine ⟨((first :: rest).reverse.takeWhile (·.isEmpty)).length, ?_⟩
  rw [dropEmptyEnds, hstart]
  exact hsplit

theorem readBody_dropEmptyEnds {first : Line} {rest : List Line} (hne : first ≠ [])
    (hcode : ((first :: rest).foldl Reader.step {}).code = none) :
    readBody (dropEmptyEnds (first :: rest)) = readBody (first :: rest) := by
  obtain ⟨n, hlines⟩ := dropEmptyEnds_append_replicate hne rest
  have hread : (first :: rest).foldl Reader.step {} =
      (List.replicate n []).foldl Reader.step ((dropEmptyEnds (first :: rest)).foldl Reader.step {}) := by
    rw [← List.foldl_append, hlines]
  rw [hread] at hcode
  rw [readBody, readBody, hread, Reader.result_foldl_replicate_nil n _ hcode]

theorem addEntries_eq (entries : List (Topic × String)) : ∀ d : Documentation,
    addEntries d entries =
      { d with
        parameters := d.parameters ++ entries.filterMap Topic.parameter?
        returns := (entries.filterMap Topic.returns?).getLast?.or d.returns
        throws := (entries.filterMap Topic.throws?).getLast?.or d.throws
        callouts := d.callouts ++ entries.filterMap Topic.callout? } := by
  induction entries with
  | nil => intro d; simp [addEntries]
  | cons entry rest ih =>
    intro d
    obtain ⟨topic, text⟩ := entry
    have hrest : addEntries d ((topic, text) :: rest) = addEntries (topic.addTo text d) rest := rfl
    rw [hrest, ih]
    cases topic <;>
      simp [Topic.addTo, Topic.parameter?, Topic.returns?, Topic.throws?, Topic.callout?, List.filterMap_cons,
        List.getLast?_cons]

/-! ### The whole comment -/

namespace Article

variable (article : Article)

theorem isBodyLine : ∀ line ∈ article.lines, IsBodyLine line := by
  intro line hline
  rcases List.mem_append.mp hline with hline | hline
  · rcases List.mem_append.mp hline with hline | hline
    · exact article.summary.isBodyLine line hline
    · obtain ⟨prose, -, hline⟩ := List.mem_flatMap.mp hline
      rcases List.mem_cons.mp hline with rfl | hline
      · exact isBodyLine_nil
      · exact prose.isBodyLine line hline
  · rcases List.mem_cons.mp hline with rfl | hline
    · exact isBodyLine_nil
    · obtain ⟨part, -, hline⟩ := List.mem_flatMap.mp hline
      exact part.isBodyLine line hline

theorem ready : (article.lines.foldl Reader.step {}).Ready (addEntries {} article.entries)
    ((article.summary :: article.discussion).map fun prose => .prose prose.text) := by
  have hsummary := Reader.foldl_plain [] (article.summary.first :: article.summary.more) []
  have hdiscussion := Reader.foldl_discussion article.discussion article.summary []
  -- The blank line before the fields finishes the last paragraph, so it counts as prose.
  have hlines : article.lines = article.summary.lines ++
      (((article.discussion.flatMap fun prose => [] :: prose.lines) ++ [[]]) ++
        article.sections.flatMap Section.lines) := by
    simp [lines]
  rw [hlines, List.foldl_append, List.foldl_append]
  have hprose : article.summary.lines.foldl Reader.step {} = Reader.inProse [] article.summary.lines :=
    hsummary
  rw [hprose, hdiscussion]
  exact Reader.Ready.foldl_sections article.sections ⟨rfl, rfl, rfl, rfl⟩

theorem readBody_lines : readBody article.lines = article.documentation := by
  rw [readBody, article.ready.result, addEntries_eq]
  simp [documentation, Paragraph.text]

/-- Reading a line comment gives what the article in it says. -/
theorem read_lineComment (trail : Nat) :
    read (lineComment trail article.lines) = .ok article.documentation := by
  obtain ⟨first, rest, hlines, hne, hstart⟩ : ∃ first rest, article.lines = first :: rest ∧ first ≠ [] ∧
      StartsInText first :=
    ⟨_, _, rfl, article.summary.first.nonempty, article.summary.first.trimmed.start⟩
  have hbody := article.isBodyLine
  have hcode := article.ready.code
  have hread := article.readBody_lines
  rw [hlines] at hbody hcode hread
  rw [← readBody_dropEmptyEnds hne hcode] at hread
  rw [read, hlines, body_lineComment trail hbody hne hstart]
  simp only [hread]
  rfl

end Article

end DocIndex.Markup
