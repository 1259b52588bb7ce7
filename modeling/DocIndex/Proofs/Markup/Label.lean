import DocIndex.Proofs.Markup.Article

/-! # The lines of an article told apart

The label of a field is read back from its bullet (`Bullet.ofLine?_bulletLine`) and tells the topic
(`Topic.ofLabel?_label`), while a line of prose is taken for nothing else, whatever its indent. -/

namespace DocIndex.Markup

open Text

/-! ### Words and labels -/

namespace Word

variable (word : Word)

theorem isAlphanum_or : ∀ c ∈ word.text, c.isAlphanum = true ∨ c = '_' := by
  intro c hc
  rcases List.mem_cons.mp hc with rfl | hc
  · exact .inl (by simp [Char.isAlphanum, word.letter])
  · exact word.others c hc

theorem isWord : IsWord word.text := by
  refine ⟨List.cons_ne_nil _ _, fun c hc => ?_⟩
  rcases word.isAlphanum_or c hc with h | rfl
  · exact isBlank_of_isAlphanum h
  · decide

end Word

/-- A label as a bullet has it: it starts with a letter and does not end in a blank. -/
structure IsLabel (label : List Char) : Prop where
  letter : ∃ c rest, label = c :: rest ∧ c.isAlpha = true
  chars : ∀ c ∈ label, isLabelChar c = true
  stop : EndsInText label

theorem Word.isLabel (word : Word) : IsLabel word.text where
  letter := ⟨_, _, rfl, word.letter⟩
  chars c hc := by rcases word.isAlphanum_or c hc with h | h <;> simp [isLabelChar, h]
  stop := word.isWord.endsInText

/-- The label of the field of a parameter. -/
theorem isLabel_parameter {name : List Char} (hne : name ≠ []) (hchars : ∀ c ∈ name, isLabelChar c = true)
    (hstop : EndsInText name) : IsLabel ("Parameter ".toList ++ name) where
  letter := ⟨_, _, rfl, rfl⟩
  chars c hc := by
    rcases List.mem_append.mp hc with hc | hc
    · exact List.all_eq_true.mp (by decide : "Parameter ".toList.all isLabelChar = true) c hc
    · exact hchars c hc
  stop := hstop.append hne _

theorem Topic.isLabel : ∀ topic : Topic, IsLabel topic.label
  | parameter name => isLabel_parameter (List.cons_ne_nil _ _) name.isLabel.chars name.isLabel.stop
  | returns => ⟨⟨_, _, rfl, rfl⟩, List.all_eq_true.mp (by decide), by decide⟩
  | throws => ⟨⟨_, _, rfl, rfl⟩, List.all_eq_true.mp (by decide), by decide⟩
  | callout delimiter => delimiter.isLabel

/-- The field that a topic announces. -/
def Topic.field : Topic → Field
  | parameter name => .parameter name.text
  | returns => .returns
  | throws => .throws
  | callout delimiter => .callout delimiter.text

theorem Field.ofLabel?_parameter {name : List Char} (h : IsWord name) :
    Field.ofLabel? ("Parameter ".toList ++ name) = some (.parameter name) := by
  have hparameter : IsWord "Parameter".toList := by decide
  have hwords : words ("Parameter ".toList ++ name) = ["Parameter".toList, name] := by
    rw [← words_word h]
    exact words_word_append hparameter (by decide : isBlank ' ' = true) name
  unfold Field.ofLabel?
  rw [hwords]
  rfl

theorem Topic.ofLabel?_label (topic : Topic) : Field.ofLabel? topic.label = some topic.field := by
  cases topic with
  | parameter name => exact Field.ofLabel?_parameter name.isWord
  | returns => rfl
  | throws => rfl
  | callout delimiter =>
    have hother : ∀ name ∈ ["parameters", "returns", "return", "throws"],
        isWordOf delimiter.text name = false := fun name hname => by
      simpa [isWordOf] using delimiter.unreserved name hname
    show Field.ofLabel? delimiter.text = some (.callout delimiter.text)
    unfold Field.ofLabel?
    rw [words_word delimiter.isWord]
    simp [hother]

/-! ### Bullets -/

section

variable {label : List Char} (indent : Nat) (text : TextLine)

theorem startsInText_dash (rest : List Char) : StartsInText ('-' :: rest) := fun c hc =>
  Option.some.inj hc ▸ by decide

theorem isFence_bulletLine (indent : Nat) (label text : List Char) :
    isFence (bulletLine indent label text) = false := by
  have hstart : trimStart (bulletLine indent label text) = '-' :: ' ' :: (label ++ ':' :: ' ' :: text) := by
    rw [bulletLine, trimStart_append fun c hc => (List.mem_replicate.mp hc).2 ▸ rfl]
    exact (startsInText_dash _).trimStart
  rw [isFence, hstart]
  rfl

theorem isBlankText_bulletLine (indent : Nat) (label text : List Char) :
    isBlankText (bulletLine indent label text) = false :=
  isBlankText_eq_false (List.mem_append_right _ List.mem_cons_self) (by decide : isBlank '-' = false)

theorem trimIndentEnd_of_endsInText (h : EndsInText label) : trimIndentEnd label = label := by
  have hdrop := dropWhile_isIndent_append (fun c hc => absurd hc List.not_mem_nil) h.reverse
  rw [trimIndentEnd]
  exact (congrArg List.reverse hdrop).trans (List.reverse_reverse label)

theorem Bullet.ofItem?_label (h : IsLabel label) :
    Bullet.ofItem? indent (' ' :: (label ++ ':' :: ' ' :: text.text)) = some ⟨indent, label, text.text⟩ := by
  have hspace : ∀ c ∈ [' '], isIndent c = true := by simp [isIndent]
  have hcolon : ':' ∉ label := fun hc => absurd (h.chars ':' hc) (by decide)
  have hletter : (label.head?.map Char.isAlpha).getD false = true := by
    obtain ⟨c, rest, rfl, hc⟩ := h.letter
    exact hc
  have hstart : StartsInText (label ++ ':' :: ' ' :: text.text) := by
    obtain ⟨c, rest, rfl, hc⟩ := h.letter
    exact fun _ hhead => Option.some.inj hhead ▸ isBlank_of_isAlphanum (by simp [Char.isAlphanum, hc])
  have hitem : (' ' :: (label ++ ':' :: ' ' :: text.text)).dropWhile isIndent =
      label ++ ':' :: ' ' :: text.text :=
    dropWhile_isIndent_append hspace hstart
  have hbody : trim (' ' :: text.text) = text.text :=
    text.trimmed.trim_append fun c hc => isBlank_of_isIndent (hspace c hc)
  rw [Bullet.ofItem?, hitem, cutAt_append hcolon]
  simpa [hletter, hbody, trimIndentEnd_of_endsInText h.stop, isIndent] using h.chars

theorem Bullet.ofLine?_bulletLine (h : IsLabel label) :
    Bullet.ofLine? (bulletLine indent label text.text) = some ⟨indent, label, text.text⟩ := by
  have hspaces : ∀ c ∈ List.replicate indent ' ', isIndent c = true := fun c hc =>
    (List.mem_replicate.mp hc).2 ▸ rfl
  have hdash := startsInText_dash (' ' :: (label ++ ':' :: ' ' :: text.text))
  have hwidth := indentWidth_append hspaces hdash
  rw [List.length_replicate] at hwidth
  rw [Bullet.ofLine?, bulletLine, dropWhile_isIndent_append hspaces hdash, hwidth]
  exact ofItem?_label indent text h

end

/-! ### Lines of text -/

namespace PlainLine

variable (line : PlainLine) {indent : Line}

theorem isFence (hindent : ∀ c ∈ indent, isIndent c = true) : isFence (indent ++ line.text) = false := by
  have htrim : trimStart (indent ++ line.text) = line.text := by
    rw [trimStart_append fun c hc => isBlank_of_isIndent (hindent c hc), line.trimmed.start.trimStart]
  have hbackticks := line.noFence.1
  have htildes := line.noFence.2
  rw [← List.isPrefixOf_iff_prefix, Bool.not_eq_true] at hbackticks htildes
  rw [Markup.isFence, htrim, hbackticks]
  exact htildes

theorem isBlankText (indent : Line) : isBlankText (indent ++ line.text) = false :=
  (line.trimmed.stop.append line.nonempty indent).isBlankText (by simp [line.nonempty])

theorem ofLine? (hindent : ∀ c ∈ indent, isIndent c = true) :
    Bullet.ofLine? (indent ++ line.text) = none := by
  have hmark := line.noItem
  rw [Bullet.ofLine?, dropWhile_isIndent_append hindent line.trimmed.start]
  cases htext : line.text with
  | nil => rfl
  | cons c rest =>
    rw [htext] at hmark
    have : isBulletMark c = false := by
      simpa [isBulletMark, and_assoc] using hmark
    simp [this]

theorem trim_indented (hindent : ∀ c ∈ indent, isIndent c = true) : trim (indent ++ line.text) = line.text :=
  line.trimmed.trim_append fun c hc => isBlank_of_isIndent (hindent c hc)

end PlainLine

/-! ### Lines of a body -/

theorem isBodyLine_nil : IsBodyLine [] :=
  ⟨List.not_mem_nil, fun _ hc => nomatch hc⟩

theorem TextLine.isBodyLine (line : TextLine) : IsBodyLine line.text :=
  ⟨line.single, line.trimmed.stop⟩

theorem isBodyLine_append {start : Line} (hstart : '\n' ∉ start) (line : TextLine) :
    IsBodyLine (start ++ line.text) :=
  ⟨fun hmem => (List.mem_append.mp hmem).elim hstart line.single,
    line.trimmed.stop.append line.nonempty start⟩

theorem isBodyLine_of_mem_note {bullet : Nat} {label : List Char} (hlabel : IsLabel label)
    (note : Note bullet) : ∀ line ∈ note.lines label, IsBodyLine line := by
  intro line hline
  rcases List.mem_cons.mp hline with rfl | hline
  · have hnewline : '\n' ∉ label := fun hc => absurd (hlabel.chars '\n' hc) (by decide)
    have hstart : '\n' ∉ List.replicate bullet ' ' ++ '-' :: ' ' :: (label ++ [':', ' ']) := by
      simp [hnewline]
    have := isBodyLine_append hstart note.first
    simpa [bulletLine] using this
  · obtain ⟨continuation, -, rfl⟩ := List.mem_map.mp hline
    have hindent : '\n' ∉ continuation.indent := fun hc => absurd (continuation.indented '\n' hc) (by decide)
    exact isBodyLine_append hindent continuation.line.toTextLine

theorem Prose.isBodyLine (prose : Prose) : ∀ line ∈ prose.lines, IsBodyLine line := by
  intro line hline
  obtain ⟨plain, -, rfl⟩ := List.mem_map.mp hline
  exact plain.isBodyLine

theorem Section.isBodyLine (part : Section) : ∀ line ∈ part.lines, IsBodyLine line := by
  cases part with
  | field topic note => exact isBodyLine_of_mem_note topic.isLabel note
  | parameters items =>
    intro line hline
    rcases List.mem_cons.mp hline with rfl | hline
    · exact ⟨by decide, by decide⟩
    · obtain ⟨⟨name, note⟩, -, hline⟩ := List.mem_flatMap.mp hline
      exact isBodyLine_of_mem_note name.isLabel note line hline

end DocIndex.Markup
