import DocIndex.Proofs.Markup.Current
import DocIndex.Proofs.Markup.LineComment
import DocIndex.Proofs.Text.Words

/-! # Characters kept and lost

Every visible character of a body is in the documentation exactly once, but for those that a bullet with a
label loses: its mark and its colon, the word that announces the field, the text after the header of a list of
parameters, and the text of an earlier field that the new one replaces (`readBody_account`). The account is
kept line by line: what the reader holds after a line, and what the line has lost, are what the reader held
before and the line (`tally_step`). -/

namespace DocIndex

open Text

namespace Markup

/-- How often a visible character occurs in a text. -/
def tally (c : Char) (text : List Char) : Nat :=
  (visible text).count c

def tallyAll (c : Char) (texts : List String) : Nat :=
  tally c (texts.flatMap String.toList)

section

variable (c : Char)

@[simp] theorem tally_nil : tally c [] = 0 :=
  rfl

@[simp] theorem tally_append (first second : List Char) :
    tally c (first ++ second) = tally c first + tally c second := by
  rw [tally, visible_append, List.count_append, tally, tally]

theorem tally_cons (d : Char) (rest : List Char) : tally c (d :: rest) = tally c [d] + tally c rest :=
  tally_append c [d] rest

@[simp] theorem tally_trim (text : List Char) : tally c (trim text) = tally c text := by
  rw [tally, visible_trim, tally]

theorem tally_blank {text : List Char} (h : ∀ d ∈ text, isBlank d = true) : tally c text = 0 := by
  rw [tally, visible_eq_nil h]
  rfl

@[simp] theorem tally_extend (text : String) (more : List Char) :
    tally c (extend text more).toList = tally c text.toList + tally c more := by
  have hspace : tally c " ".toList = 0 := tally_blank c (by simp [isBlank])
  rw [extend, String.toList_append, tally_append, String.toList_ofList, tally_trim]
  split
  next => rfl
  next => rw [String.toList_append, tally_append, hspace, Nat.add_zero]

@[simp] theorem tallyAll_nil : tallyAll c [] = 0 :=
  rfl

@[simp] theorem tallyAll_cons (text : String) (rest : List String) :
    tallyAll c (text :: rest) = tally c text.toList + tallyAll c rest := by
  rw [tallyAll, List.flatMap_cons, tally_append, tallyAll]

@[simp] theorem tallyAll_append (first second : List String) :
    tallyAll c (first ++ second) = tallyAll c first + tallyAll c second := by
  rw [tallyAll, List.flatMap_append, tally_append, tallyAll, tallyAll]

theorem tally_intercalate {blank : String} (hblank : ∀ d ∈ blank.toList, isBlank d = true) :
    ∀ texts : List String, tally c (blank.intercalate texts).toList = tallyAll c texts
  | [] => rfl
  | [text] => by simp
  | text :: next :: rest => by
    rw [String.intercalate_cons_cons, String.toList_append, String.toList_append, tally_append, tally_append,
      tally_blank c hblank, tally_intercalate hblank (next :: rest), Nat.add_zero]
    exact (tallyAll_cons c text (next :: rest)).symm

end

/-! ### What is held -/

end Markup

def Documentation.fieldTexts (documentation : Documentation) : List String :=
  (documentation.parameters.flatMap fun note => [note.name, note.description]) ++
    documentation.returns.toList ++ documentation.throws.toList ++
    documentation.callouts.flatMap fun callout => [callout.delimiter, callout.content]

def Documentation.texts (documentation : Documentation) : List String :=
  documentation.summary.toList ++ documentation.discussion ++ documentation.fieldTexts

namespace Markup

namespace Reader

/-- All texts that the reader holds. -/
def texts (reader : Reader) : List String :=
  reader.finished.map (·.text) ++ reader.pending ++ reader.code.getD [] ++ reader.documentation.fieldTexts

variable (c : Char) (reader : Reader)

theorem tallyAll_endParagraph : tallyAll c reader.endParagraph.texts = tallyAll c reader.texts := by
  have hjoined := tally_intercalate c (by simp [isBlank] : ∀ d ∈ " ".toList, isBlank d = true) reader.pending
  rw [endParagraph]
  split
  next => rfl
  next => simp [texts, Paragraph.text, -String.toList_intercalate, hjoined]

theorem tally_codeBlock (lines : List String) : tally c (codeBlock lines).text.toList = tallyAll c lines :=
  tally_intercalate c (by simp [isBlank] : ∀ d ∈ "\n".toList, isBlank d = true) lines

theorem tallyAll_endCode : tallyAll c reader.endCode.texts = tallyAll c reader.texts := by
  rw [endCode]
  split
  next lines hcode =>
    simp [texts, tally_codeBlock, hcode]
    omega
  next => rfl

theorem tallyAll_modify {α : Type} (texts : α → List String) (f : α → α) (more : Nat)
    (hf : ∀ a, tallyAll c (texts (f a)) = tallyAll c (texts a) + more) :
    ∀ {index : Nat} {list : List α}, index < list.length →
      tallyAll c ((list.modify index f).flatMap texts) = tallyAll c (list.flatMap texts) + more
  | _, [], hindex => absurd hindex (Nat.not_lt_zero _)
  | 0, a :: rest, _ => by
    simp [hf]
    omega
  | index + 1, a :: rest, hindex => by
    have ih := tallyAll_modify texts f more hf (Nat.lt_of_succ_lt_succ hindex : index < rest.length)
    simp [ih]
    omega

variable {reader}

theorem tallyAll_addTo {ref : FieldRef} (h : ref.IsLast reader.documentation) (line : List Char) :
    tallyAll c (reader.addTo ref line).texts = tallyAll c reader.texts + tally c line := by
  cases ref with
  | parameter index =>
    have hindex : index < reader.documentation.parameters.length := Nat.lt_of_succ_le (Nat.le_of_eq h)
    have hnotes := tallyAll_modify c (fun note : ParameterNote => [note.name, note.description])
      (fun note => { note with description := extend note.description line }) (tally c line)
      (fun note => by simp [Nat.add_assoc]) hindex
    simp [texts, addTo, Documentation.fieldTexts, hnotes]
    omega
  | callout index =>
    have hindex : index < reader.documentation.callouts.length := Nat.lt_of_succ_le (Nat.le_of_eq h)
    have hcallouts := tallyAll_modify c (fun callout : Callout => [callout.delimiter, callout.content])
      (fun callout => { callout with content := extend callout.content line }) (tally c line)
      (fun callout => by simp [Nat.add_assoc]) hindex
    simp [texts, addTo, Documentation.fieldTexts, hcallouts]
    omega
  | returns =>
    obtain ⟨text, htext⟩ := Option.isSome_iff_exists.mp h
    simp [texts, addTo, Documentation.fieldTexts, htext]
    omega
  | throws =>
    obtain ⟨text, htext⟩ := Option.isSome_iff_exists.mp h
    simp [texts, addTo, Documentation.fieldTexts, htext]
    omega

theorem tallyAll_openParameter (indent : Nat) (name description : List Char) :
    tallyAll c (reader.openParameter indent name description).texts =
      tallyAll c reader.texts + tally c name + tally c description := by
  simp [texts, openParameter, Documentation.fieldTexts]
  omega

theorem tallyAll_readText (h : reader.Sound) (line : Line) :
    tallyAll c (reader.readText line).texts = tallyAll c reader.texts + tally c line := by
  rw [readText]
  split
  next ref indent hcurrent =>
    have hopen := (Option.filter_eq_some_iff.mp hcurrent).1
    exact tallyAll_addTo c (h.current ref indent hopen) line
  next =>
    simp [texts]
    omega

end Reader

/-! ### What is lost -/

/-- What a bullet that starts a field loses. -/
structure Loss where
  mark : Char
  /-- The word that announces the field. -/
  keyword : List Char := []
  /-- The text after the header of a list of parameters. -/
  header : List Char := []
  /-- The text of an earlier field, if the new one takes its place. -/
  replaced : List Char := []
  deriving DecidableEq, Repr

/-- The characters that are lost: the mark, the colon after the label, and the texts. -/
def Loss.text (loss : Loss) : List Char :=
  [loss.mark, ':'] ++ loss.keyword ++ loss.header ++ loss.replaced

namespace Field

/-- The words that announce a field, in lower case. -/
def keywords : List String :=
  ["parameters", "parameter", "returns", "return", "throws"]

/-- The word of a label that announces the field. A callout has none. -/
def keyword (label : List Char) : Field → List Char
  | callout _ => []
  | _ => (words label).headD []

/-- The word of a label that the documentation keeps. -/
def kept : Field → List Char
  | parameter word | callout word => word
  | _ => []

/-- What a new field loses. Only the result and the errors have no more than one field. -/
def loss (documentation : Documentation) (mark : Char) (bullet : Bullet) (field : Field) : Loss where
  mark
  keyword := field.keyword bullet.label
  header :=
    match field with
    | parameters => bullet.body
    | _ => []
  replaced :=
    match field with
    | returns => (documentation.returns.getD "").toList
    | throws => (documentation.throws.getD "").toList
    | _ => []

end Field

def itemMark (line : Line) : Char :=
  (line.dropWhile isIndent).headD ' '

/-- What is lost of a line, if the reader takes it for a bullet that starts a field. An item of an open list
of parameters loses no word. -/
def Reader.loss? (reader : Reader) (line : Line) : Option Loss :=
  if reader.code.isSome then none
  else
    (Bullet.ofLine? line).bind fun bullet =>
      if reader.listHolds bullet.indent then some { mark := itemMark line }
      else (Field.ofLabel? bullet.label).map (Field.loss reader.documentation (itemMark line) bullet)

/-- What is lost of some lines, bullet by bullet. -/
def Reader.losses (reader : Reader) : List Line → List Loss
  | [] => []
  | line :: rest => (reader.loss? line).toList ++ (reader.step line).losses rest

/-! ### Bullets -/

/-- A bullet is an indent, a mark, a label with a colon, and the body, with blanks between them. -/
theorem Bullet.exists_of_ofLine? {line : Line} {bullet : Bullet} (h : Bullet.ofLine? line = some bullet) :
    ∃ item label text, line.dropWhile isIndent = itemMark line :: item ∧ isBulletMark (itemMark line) = true ∧
      item.dropWhile isIndent = label ++ ':' :: text ∧ bullet.label = trimIndentEnd label ∧
      bullet.body = trim text ∧ ((label.head?.map Char.isAlpha).getD false && label.all isLabelChar) = true := by
  rw [ofLine?] at h
  split at h
  next mark item hline =>
    have hmark : itemMark line = mark := by rw [itemMark, hline]; rfl
    split at h
    next hbullet =>
      rw [ofItem?] at h
      split at h
      next =>
        split at h
        next label text hcut =>
          split at h
          next hlabel =>
            obtain rfl := Option.some.inj h
            exact ⟨item, label, text, hmark ▸ hline, hmark ▸ hbullet, (cutAt_eq_some_iff.mp hcut).1, rfl, rfl, hlabel⟩
          next => cases h
        next => cases h
      next => cases h
    next => cases h
  next => cases h

theorem tally_bullet {line : Line} {bullet : Bullet} (h : Bullet.ofLine? line = some bullet) (c : Char) :
    tally c line = tally c [itemMark line, ':'] + tally c bullet.label + tally c bullet.body := by
  obtain ⟨item, label, text, hline, -, hitem, hlabel, hbody, -⟩ := Bullet.exists_of_ofLine? h
  have hindent : ∀ text : List Char, tally c (text.dropWhile isIndent) = tally c text := fun text => by
    rw [tally, visible_dropWhile (fun _ => isBlank_of_isIndent), tally]
  have hend : tally c (trimIndentEnd label) = tally c label := by
    rw [tally, trimIndentEnd, visible_dropWhileEnd (fun _ => isBlank_of_isIndent), tally]
  rw [← hindent line, hline, tally_cons, ← hindent item, hitem, tally_append, tally_cons c ':', hlabel, hbody, hend,
    tally_trim, tally_cons c _ [':']]
  omega

theorem trimStart_of_bullet {line : Line} {bullet : Bullet} (h : Bullet.ofLine? line = some bullet) :
    ∃ item, trimStart line = itemMark line :: item ∧ isBulletMark (itemMark line) = true := by
  obtain ⟨item, -, -, hline, hmark, -⟩ := Bullet.exists_of_ofLine? h
  refine ⟨item, ?_, hmark⟩
  have htext : isBlank (itemMark line) = false := by
    simp only [isBulletMark, Bool.or_eq_true, beq_iff_eq] at hmark
    rcases hmark with (hmark | hmark) | hmark <;> rw [hmark] <;> decide
  have hindent : ∀ c ∈ line.takeWhile isIndent, isBlank c = true := fun c hc =>
    isBlank_of_isIndent (List.all_eq_true.mp List.all_takeWhile c hc)
  calc trimStart line
      = trimStart (line.takeWhile isIndent ++ line.dropWhile isIndent) := by rw [List.takeWhile_append_dropWhile]
    _ = trimStart (itemMark line :: item) := by rw [trimStart_append hindent, hline]
    _ = itemMark line :: item := trimStart_cons htext item

theorem isFence_of_bullet {line : Line} {bullet : Bullet} (h : Bullet.ofLine? line = some bullet) :
    isFence line = false := by
  obtain ⟨item, hline, hmark⟩ := trimStart_of_bullet h
  simp only [isBulletMark, Bool.or_eq_true, beq_iff_eq] at hmark
  rw [isFence, hline]
  rcases hmark with (hmark | hmark) | hmark <;> rw [hmark] <;> rfl

theorem isBlankText_of_bullet {line : Line} {bullet : Bullet} (h : Bullet.ofLine? line = some bullet) :
    isBlankText line = false := by
  obtain ⟨item, hline, -⟩ := trimStart_of_bullet h
  cases hblank : isBlankText line with
  | false => rfl
  | true =>
    have hnil := trimStart_append (List.all_eq_true.mp hblank) []
    rw [List.append_nil, hline] at hnil
    cases hnil

/-! ### Labels -/

/-- A label that announces a field is one word that is kept, or starts with a keyword and is kept but for it. -/
theorem Field.exists_of_ofLabel? {label : List Char} {field : Field} (h : Field.ofLabel? label = some field) :
    ∃ word rest, words label = word :: rest ∧
      ((field = callout word ∧ rest = []) ∨
        (field.keyword label = word ∧ field.kept = rest.flatten ∧
          ∃ name ∈ keywords, isWordOf word name = true)) := by
  rw [Field.ofLabel?] at h
  split at h
  next word hwords =>
    have hkeyword : (words label).headD [] = word := congrArg (List.headD · []) hwords
    refine ⟨word, [], hwords, ?_⟩
    split at h
    next hword =>
      obtain rfl := Option.some.inj h
      exact .inr ⟨hkeyword, rfl, _, by simp [keywords], hword⟩
    next =>
      split at h
      next hword =>
        obtain rfl := Option.some.inj h
        refine .inr ⟨hkeyword, rfl, ?_⟩
        rcases Bool.or_eq_true_iff.mp hword with hword | hword <;> exact ⟨_, by simp [keywords], hword⟩
      next =>
        split at h
        next hword =>
          obtain rfl := Option.some.inj h
          exact .inr ⟨hkeyword, rfl, _, by simp [keywords], hword⟩
        next => exact .inl ⟨(Option.some.inj h).symm, rfl⟩
  next word name hwords =>
    split at h
    next hword =>
      obtain rfl := Option.some.inj h
      have hkeyword : (words label).headD [] = word := congrArg (List.headD · []) hwords
      exact ⟨word, [name], hwords, .inr ⟨hkeyword, List.flatten_singleton.symm, _, by simp [keywords], hword⟩⟩
    next => cases h
  next => cases h

theorem Field.tally_label {label : List Char} {field : Field} (h : Field.ofLabel? label = some field) (c : Char) :
    tally c label = tally c (field.keyword label) + tally c field.kept := by
  have hparts : field.keyword label ++ field.kept = visible label := by
    rw [← flatten_words]
    obtain ⟨word, rest, hwords, ⟨rfl, rfl⟩ | ⟨hkeyword, hkept, -⟩⟩ := Field.exists_of_ofLabel? h
    · rw [hwords, List.flatten_singleton]
      rfl
    · rw [hwords, hkeyword, hkept, List.flatten_cons]
  rw [← tally_append, hparts, tally, tally, visible_visible]

/-! ### Lines -/

namespace Reader

variable (c : Char) {reader : Reader}

theorem tallyAll_toList (text : Option String) : tallyAll c text.toList = tally c (text.getD "").toList := by
  cases text <;> simp

theorem tallyAll_openField (reader : Reader) {bullet : Bullet} {field : Field}
    (h : Field.ofLabel? bullet.label = some field) (mark : Char) :
    tallyAll c (reader.openField bullet field).texts + tally c (field.loss reader.documentation mark bullet).text =
      tallyAll c reader.texts + (tally c [mark, ':'] + tally c bullet.label + tally c bullet.body) := by
  have hlabel := Field.tally_label h c
  have hempty : tally c "".toList = 0 := rfl
  rw [Loss.text, tally_append, tally_append, tally_append, hlabel]
  cases field with
  | parameters =>
    have htexts : (reader.openField bullet .parameters).texts = reader.texts := rfl
    simp only [htexts, Field.loss, Field.kept, tally_nil]
    omega
  | parameter name =>
    simp only [openField, tallyAll_openParameter, Field.loss, Field.kept, tally_nil]
    omega
  | returns | throws =>
    -- The field starts out empty, and what it held before is lost.
    simp only [openField, addTo, texts, Documentation.fieldTexts, tallyAll_append, tallyAll_toList, Option.getD_some,
      tally_extend, hempty, Field.loss, Field.kept, tally_nil]
    omega
  | callout delimiter =>
    simp only [openField, texts, Documentation.fieldTexts, tallyAll_append, List.flatMap_append,
      List.flatMap_singleton, tallyAll_cons, tallyAll_nil, String.toList_ofList, Field.loss, Field.kept, tally_nil]
    omega

theorem loss?_bullet {line : Line} (hcode : reader.code = none) {bullet : Bullet}
    (h : Bullet.ofLine? line = some bullet) :
    reader.loss? line =
      if reader.listHolds bullet.indent then some { mark := itemMark line }
      else (Field.ofLabel? bullet.label).map (Field.loss reader.documentation (itemMark line) bullet) := by
  simp [loss?, hcode, h]

theorem tallyAll_readBullet (h : reader.Sound) (hcode : reader.code = none) {line : Line} {bullet : Bullet}
    (hbullet : Bullet.ofLine? line = some bullet) :
    tallyAll c (reader.readBullet line bullet).texts + tally c ((reader.loss? line).toList.flatMap Loss.text) =
      tallyAll c reader.texts + tally c line := by
  rw [loss?_bullet hcode hbullet, readBullet]
  split
  next =>
    have hloss : tally c ((some ({ mark := itemMark line } : Loss)).toList.flatMap Loss.text) =
        tally c [itemMark line, ':'] := by
      simp [Loss.text]
    rw [tallyAll_openParameter, tallyAll_endParagraph, hloss, tally_bullet hbullet]
    omega
  next =>
    have hclosed : ({ reader with listIndent := none } : Reader).texts = reader.texts := rfl
    cases hfield : Field.ofLabel? bullet.label with
    | none =>
      have hread := tallyAll_readText c (h.closeList none) line
      rw [hclosed] at hread
      simpa using hread
    | some field =>
      let closed : Reader := { reader with listIndent := none }
      have hopened := tallyAll_openField c closed.endParagraph hfield (itemMark line)
      rw [endParagraph_documentation, tallyAll_endParagraph, hclosed, ← tally_bullet hbullet] at hopened
      simpa using hopened

theorem loss?_eq_none (reader : Reader) {line : Line} (h : Bullet.ofLine? line = none) :
    reader.loss? line = none := by
  simp [loss?, h]

/-- What the reader holds after a line, and what the line has lost, are what the reader held before and the
line. -/
theorem tally_step (h : reader.Sound) (line : Line) :
    tallyAll c (reader.step line).texts + tally c ((reader.loss? line).toList.flatMap Loss.text) =
      tallyAll c reader.texts + tally c line := by
  rw [step]
  split
  next lines hcode =>
    have hloss : reader.loss? line = none := by simp [loss?, hcode]
    split <;> simp [texts, hcode, hloss, tally_codeBlock] <;> omega
  next hcode =>
    cases hbullet : Bullet.ofLine? line with
    | some bullet =>
      have hread := tallyAll_readBullet c h hcode hbullet
      simpa [isFence_of_bullet hbullet, readLine, isBlankText_of_bullet hbullet, hbullet] using hread
    | none =>
      rw [loss?_eq_none reader hbullet]
      split
      next =>
        have hended := tallyAll_endParagraph c reader
        have hnone : reader.endParagraph.code = none := reader.endParagraph_code.trans hcode
        simp only [texts, hnone, Option.getD_none, Option.getD_some, tallyAll_append, tallyAll_cons, tallyAll_nil,
          String.toList_ofList, Option.toList_none, List.flatMap_nil, tally_nil] at hended ⊢
        omega
      next =>
        rw [readLine]
        split
        next hblank =>
          have hline : tally c line = 0 := tally_blank c (List.all_eq_true.mp hblank)
          rw [hline]
          exact tallyAll_endParagraph c reader
        next =>
          rw [hbullet]
          exact tallyAll_readText c h line

theorem tally_foldl (lines : List Line) : ∀ {reader : Reader}, reader.Sound →
    tallyAll c (lines.foldl step reader).texts + tally c ((reader.losses lines).flatMap Loss.text) =
      tallyAll c reader.texts + tally c lines.flatten := by
  induction lines with
  | nil => intro reader _; rfl
  | cons line rest ih =>
    intro reader h
    have hstep := tally_step c h line
    have hrest := ih (h.step line)
    rw [losses, List.flatMap_append, tally_append, List.foldl_cons, List.flatten_cons, tally_append]
    omega

/-! ### The end of a body -/

theorem endCode_code (reader : Reader) : reader.endCode.code = none := by
  rw [endCode]
  split
  next => rfl
  next hcode => exact hcode

theorem endCode_documentation (reader : Reader) : reader.endCode.documentation = reader.documentation := by
  rw [endCode]
  split <;> rfl

/-- At the end of a body all that is held becomes documentation. -/
theorem tally_result (h : reader.Sound) : tallyAll c reader.result.texts = tallyAll c reader.texts := by
  have hheld : tallyAll c reader.endCode.endParagraph.texts = tallyAll c reader.texts := by
    rw [tallyAll_endParagraph, tallyAll_endCode]
  have hcode : reader.endCode.endParagraph.code = none := (endParagraph_code _).trans reader.endCode_code
  have hpending := reader.endCode.endParagraph_pending
  have hsummary : reader.endCode.endParagraph.documentation.summary = none := by
    rw [endParagraph_documentation, endCode_documentation, h.summary]
  rw [← hheld, result]
  generalize reader.endCode.endParagraph = last at hcode hpending hsummary ⊢
  split
  next summary rest hfinished =>
    simp [texts, Documentation.texts, Documentation.fieldTexts, hfinished, hcode, hpending, Paragraph.text]
  next => simp [texts, Documentation.texts, Documentation.fieldTexts, hcode, hpending, hsummary]

/-- A bullet loses its mark, and at most the keyword of its label. -/
theorem keyword_of_loss? {line : Line} {loss : Loss} (h : reader.loss? line = some loss) :
    isBulletMark loss.mark = true ∧
      (loss.keyword = [] ∨ ∃ name ∈ Field.keywords, isWordOf loss.keyword name = true) := by
  rw [loss?] at h
  split at h
  next => cases h
  next =>
    obtain ⟨bullet, hbullet, h⟩ := Option.bind_eq_some_iff.mp h
    obtain ⟨-, -, hmark⟩ := trimStart_of_bullet hbullet
    split at h
    next =>
      obtain rfl := Option.some.inj h
      exact ⟨hmark, .inl rfl⟩
    next =>
      obtain ⟨field, hfield, rfl⟩ := Option.map_eq_some_iff.mp h
      refine ⟨hmark, ?_⟩
      obtain ⟨word, rest, -, ⟨rfl, -⟩ | ⟨hkeyword, -, hname⟩⟩ := Field.exists_of_ofLabel? hfield
      · exact .inl rfl
      · rw [← hkeyword] at hname
        exact .inr hname

theorem keyword_of_mem_losses (lines : List Line) : ∀ {reader : Reader}, ∀ loss ∈ reader.losses lines,
    isBulletMark loss.mark = true ∧
      (loss.keyword = [] ∨ ∃ name ∈ Field.keywords, isWordOf loss.keyword name = true) := by
  induction lines with
  | nil => intro reader loss hloss; cases hloss
  | cons line rest ih =>
    intro reader loss hloss
    rcases List.mem_append.mp hloss with hloss | hloss
    · exact keyword_of_loss? (Option.mem_toList.mp hloss)
    · exact ih loss hloss

end Reader

/-- Every visible character of a body is in the documentation or among what the bullets that start fields have
lost, as often as in the body. Of its label a bullet loses at most the word that announces its field. -/
theorem readBody_account (body : List Line) :
    let said := visible ((readBody body).texts.flatMap String.toList)
    let lost := ({} : Reader).losses body
    (said ++ visible (lost.flatMap Loss.text)).Perm (visible body.flatten) ∧
      (∀ c, said.count c ≤ (visible body.flatten).count c) ∧
      ∀ loss ∈ lost, isBulletMark loss.mark = true ∧
        (loss.keyword = [] ∨ ∃ name ∈ Field.keywords, isWordOf loss.keyword name = true) := by
  intro said lost
  have hcount : ∀ c, said.count c + (visible (lost.flatMap Loss.text)).count c = (visible body.flatten).count c := by
    intro c
    have hread := Reader.tally_foldl c body Reader.sound_empty
    have hresult := Reader.tally_result c (Reader.sound_empty.foldl body)
    have hnone : tallyAll c ({} : Reader).texts = 0 := rfl
    rw [← hresult, hnone, Nat.zero_add] at hread
    exact hread
  refine ⟨List.perm_iff_count.mpr fun c => ?_, fun c => ?_, Reader.keyword_of_mem_losses body⟩
  · rw [List.count_append, hcount]
  · exact Nat.le.intro (hcount c)

/-- A list of parameters with a text after its header, and a result that is told twice. -/
theorem readBody_account_replaced :
    let body := ["- Parameters: both".toList, "  - x: A sum".toList, "- Returns: one".toList, "* RETURN: two".toList]
    let lost : List Loss :=
      [{ mark := '-', keyword := "Parameters".toList, header := "both".toList }, { mark := '-' },
        { mark := '-', keyword := "Returns".toList },
        { mark := '*', keyword := "RETURN".toList, replaced := "one".toList }]
    ({} : Reader).losses body = lost ∧
      (visible ((readBody body).texts.flatMap String.toList) ++ visible (lost.flatMap Loss.text)).Perm
        (visible body.flatten) ∧
      ∃ name ∈ Field.keywords, isWordOf "RETURN".toList name = true := by
  intro body lost
  have hlost : ({} : Reader).losses body = lost := by decide +kernel
  obtain ⟨hperm, -, hkeyword⟩ := readBody_account body
  rw [hlost] at hperm hkeyword
  obtain ⟨-, hempty | hname⟩ := hkeyword
    { mark := '*', keyword := "RETURN".toList, replaced := "one".toList } (by simp [lost])
  · cases hempty
  · exact ⟨hlost, hperm, hname⟩

end Markup

end DocIndex
