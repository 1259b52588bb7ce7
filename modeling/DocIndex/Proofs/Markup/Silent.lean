import DocIndex.Proofs.Markup.Account
import DocIndex.Proofs.Markup.Label
import DocIndex.Proofs.Markup.Layout

/-! # Bodies that say nothing

A body has no documentation exactly if its lines are blank or open lists of parameters that stay without items: no
such bullet is indented deeper than the one before it (`readBody_isEmpty_iff`). Any other line leaves something with
the reader, in every state that it reaches (`Reader.bare_step_iff`), and nothing that follows takes it away. -/

namespace DocIndex

open Text

/-! ### Words of a trimmed text -/

namespace Text

theorem isBlank_of_words_eq_nil {text : List Char} (h : words text = []) : ∀ c ∈ text, isBlank c = true := by
  have hvisible := flatten_words text
  rw [h, List.flatten_nil] at hvisible
  simpa [visible] using hvisible.symm

/-- A trimmed text of a single word is that word. -/
theorem Trimmed.eq_of_words {text word : List Char} (h : Trimmed text) (hwords : words text = [word]) :
    text = word := by
  have hsplit := List.takeWhile_append_dropWhile (p := fun c => !isBlank c) (l := text)
  have hfirst : ∀ c ∈ text.takeWhile fun c => !isBlank c, isBlank c = false := fun c hc => by
    simpa using List.all_eq_true.mp List.all_takeWhile c hc
  generalize text.takeWhile (fun c => !isBlank c) = first at hsplit hfirst
  cases hrest : text.dropWhile fun c => !isBlank c with
  | nil =>
    rw [hrest, List.append_nil] at hsplit
    subst hsplit
    have hne : first ≠ [] := by
      rintro rfl
      cases hwords
    rw [words_word ⟨hne, hfirst⟩] at hwords
    exact List.head_eq_of_cons_eq hwords
  | cons blank rest =>
    have hblank : isBlank blank = true := by
      have hhead := List.head?_dropWhile_not (fun c => !isBlank c) text
      rw [hrest] at hhead
      simpa using hhead
    rw [hrest] at hsplit
    subst hsplit
    have hne : first ≠ [] := by
      rintro rfl
      rw [h.start blank rfl] at hblank
      cases hblank
    rw [words_word_append ⟨hne, hfirst⟩ hblank] at hwords
    -- What follows the first blank is blank too, but the text does not end in a blank.
    have hlater := isBlank_of_words_eq_nil (List.cons.inj hwords).2
    have hall : ∀ c ∈ blank :: rest, isBlank c = true := List.forall_mem_cons.mpr ⟨hblank, hlater⟩
    have hlast := h.stop.of_append first _ (List.getLast?_eq_some_getLast (List.cons_ne_nil blank rest))
    rw [hall _ (List.getLast_mem _)] at hlast
    cases hlast

theorem toLower_of_isBlank {c : Char} (h : isBlank c = true) : c.toLower = c := by
  refine dif_neg fun hupper => ?_
  have halpha : c.isAlphanum = true := by
    change ((decide (65 ≤ c.val ∧ c.val ≤ 90) || decide (97 ≤ c.val) && decide (c.val ≤ 122)) ||
      decide (48 ≤ c.val) && decide (c.val ≤ 57)) = true
    rw [decide_eq_true (show 65 ≤ c.val ∧ c.val ≤ 90 from hupper), Bool.true_or, Bool.true_or]
  rw [isBlank_of_isAlphanum halpha] at h
  cases h

end Text

namespace Markup

/-! ### Headers of lists -/

/-- Whether a bullet announces a list of parameters. -/
def Bullet.isHeader (bullet : Bullet) : Bool :=
  isWordOf bullet.label "parameters"

theorem isWord_of_isWordOf {word : List Char} (h : isWordOf word "parameters" = true) : IsWord word := by
  have hlower : word.map Char.toLower = "parameters".toList := beq_iff_eq.mp h
  refine ⟨?_, fun c hc => ?_⟩
  · rintro rfl
    cases hlower
  · cases hblank : isBlank c with
    | false => rfl
    | true =>
      have hmem : c ∈ "parameters".toList := by
        rw [← hlower, ← toLower_of_isBlank hblank]
        exact List.mem_map_of_mem hc
      have hletters : "parameters".toList.all (fun c => !isBlank c) = true := by decide
      have hc := List.all_eq_true.mp hletters c hmem
      rw [hblank] at hc
      cases hc

theorem trimIndentEnd_isPrefix (text : List Char) : trimIndentEnd text <+: text := by
  have hreverse := List.reverse_prefix.mpr (List.dropWhile_suffix (l := text.reverse) isIndent)
  rw [List.reverse_reverse] at hreverse
  exact hreverse

theorem exists_trimIndentEnd_cons {c : Char} (h : isIndent c = false) (rest : List Char) :
    ∃ more, trimIndentEnd (c :: rest) = c :: more := by
  rw [trimIndentEnd, List.reverse_cons, List.dropWhile_append]
  split
  next => exact ⟨[], by simp [h]⟩
  next => exact ⟨_, by rw [List.reverse_append]; rfl⟩

theorem isIndent_of_getLast?_trimIndentEnd {text : List Char} {c : Char} (h : (trimIndentEnd text).getLast? = some c) :
    isIndent c = false := by
  have hhead := List.head?_dropWhile_not isIndent text.reverse
  rw [trimIndentEnd, List.getLast?_reverse] at h
  rw [h] at hhead
  exact hhead

theorem isBlank_of_isLabelChar {c : Char} (h : isLabelChar c = true) (hindent : isIndent c = false) :
    isBlank c = false := by
  simp only [isLabelChar, hindent, Bool.or_false, Bool.or_eq_true, beq_iff_eq] at h
  rcases h with halpha | rfl
  · exact isBlank_of_isAlphanum halpha
  · decide

theorem isIndent_of_isAlpha {c : Char} (h : c.isAlpha = true) : isIndent c = false := by
  cases hindent : isIndent c with
  | false => rfl
  | true =>
    have htext := isBlank_of_isAlphanum (by simp [Char.isAlphanum, h] : c.isAlphanum = true)
    rw [isBlank_of_isIndent hindent] at htext
    cases htext

theorem Bullet.isLabel {line : Line} {bullet : Bullet} (h : Bullet.ofLine? line = some bullet) :
    IsLabel bullet.label := by
  obtain ⟨-, label, -, -, -, -, hlabel, -, hread⟩ := Bullet.exists_of_ofLine? h
  obtain ⟨hletter, hchars⟩ := Bool.and_eq_true_iff.mp hread
  have hchars : ∀ c ∈ trimIndentEnd label, isLabelChar c = true := fun c hc =>
    List.all_eq_true.mp hchars c ((trimIndentEnd_isPrefix label).subset hc)
  rw [hlabel]
  refine ⟨?_, hchars, fun c hc => ?_⟩
  · cases label with
    | nil => cases hletter
    | cons c rest =>
      have hc : c.isAlpha = true := hletter
      obtain ⟨more, hmore⟩ := exists_trimIndentEnd_cons (isIndent_of_isAlpha hc) rest
      exact ⟨c, more, hmore, hc⟩
  · exact isBlank_of_isLabelChar (hchars c (List.mem_of_getLast? hc)) (isIndent_of_getLast?_trimIndentEnd hc)

theorem IsLabel.trimmed {label : List Char} (h : IsLabel label) : Trimmed label := by
  refine ⟨fun c hc => ?_, h.stop⟩
  obtain ⟨d, rest, rfl, hd⟩ := h.letter
  obtain rfl := Option.some.inj hc
  exact isBlank_of_isAlphanum (by simp [Char.isAlphanum, hd])

/-- A list is announced by its word alone. -/
theorem IsLabel.ofLabel?_eq_parameters_iff {label : List Char} (h : IsLabel label) :
    Field.ofLabel? label = some .parameters ↔ isWordOf label "parameters" = true := by
  constructor
  · intro hfield
    rw [Field.ofLabel?] at hfield
    split at hfield
    next word hwords =>
      obtain rfl := h.trimmed.eq_of_words hwords
      split at hfield
      next hword => exact hword
      next =>
        repeat' split at hfield
        all_goals cases hfield
    next =>
      split at hfield <;> cases hfield
    next => cases hfield
  · intro hword
    rw [Field.ofLabel?, words_word (isWord_of_isWordOf hword)]
    simp [hword]

/-! ### What a reader holds -/

/-- Nothing has been read that becomes documentation. -/
structure Reader.Bare (reader : Reader) : Prop where
  finished : reader.finished = []
  pending : reader.pending = []
  code : reader.code = none
  parameters : reader.documentation.parameters = []
  returns : reader.documentation.returns = none
  throws : reader.documentation.throws = none
  callouts : reader.documentation.callouts = []

/-- The line is blank, or opens a list of parameters and is no item of an open one. -/
def Reader.Ignores (reader : Reader) (line : Line) : Prop :=
  isBlankText line = true ∨
    ∃ header, Bullet.ofLine? line = some header ∧ header.isHeader = true ∧ reader.listHolds header.indent = false

namespace Reader

variable {reader : Reader} {line : Line}

theorem bare_empty : Bare {} :=
  ⟨rfl, rfl, rfl, rfl, rfl, rfl, rfl⟩

/-- Which list and which field are open makes no difference. -/
theorem bare_with_iff (reader : Reader) (listIndent : Option Nat) (current : Option (FieldRef × Nat)) :
    ({ reader with listIndent, current } : Reader).Bare ↔ reader.Bare :=
  ⟨fun h => ⟨h.finished, h.pending, h.code, h.parameters, h.returns, h.throws, h.callouts⟩,
    fun h => ⟨h.finished, h.pending, h.code, h.parameters, h.returns, h.throws, h.callouts⟩⟩

theorem Bare.endParagraph (h : reader.Bare) : reader.endParagraph = reader :=
  endParagraph_of_pending_nil h.pending

theorem Bare.of_endParagraph (h : reader.endParagraph.Bare) : reader.Bare := by
  by_cases hpending : reader.pending = []
  · rw [endParagraph_of_pending_nil hpending] at h
    exact h
  · have hfinished := h.finished
    simp [Reader.endParagraph, hpending] at hfinished

/-- The open field holds something. -/
theorem Sound.not_bare (h : reader.Sound) {ref : FieldRef} {indent : Nat}
    (hcurrent : reader.current = some (ref, indent)) : ¬reader.Bare := by
  intro hbare
  have hlast := h.current ref indent hcurrent
  cases ref with
  | parameter index => simp [FieldRef.IsLast, hbare.parameters] at hlast
  | callout index => simp [FieldRef.IsLast, hbare.callouts] at hlast
  | returns => simp [FieldRef.IsLast, hbare.returns] at hlast
  | throws => simp [FieldRef.IsLast, hbare.throws] at hlast

theorem Bare.of_addTo {ref : FieldRef} {text : List Char} (h : (reader.addTo ref text).Bare) : reader.Bare := by
  cases ref with
  | parameter index => exact { h with parameters := List.modify_eq_nil_iff.mp h.parameters }
  | callout index => exact { h with callouts := List.modify_eq_nil_iff.mp h.callouts }
  | returns => cases h.returns
  | throws => cases h.throws

theorem Bare.of_openParameter {indent : Nat} {name description : List Char}
    (h : (reader.openParameter indent name description).Bare) : False := by
  have hparameters := h.parameters
  simp [openParameter] at hparameters

/-- Of all fields only a list of parameters starts with nothing. -/
theorem bare_openField_iff {bullet : Bullet} {field : Field} :
    (reader.openField bullet field).Bare ↔ reader.Bare ∧ field = .parameters := by
  constructor
  · intro h
    cases field with
    | parameters => exact ⟨(reader.bare_with_iff _ _).mp h, rfl⟩
    | parameter name => exact absurd h Bare.of_openParameter
    | returns => cases h.returns
    | throws => cases h.throws
    | callout delimiter =>
      have hcallouts := h.callouts
      simp [openField] at hcallouts
  · rintro ⟨h, rfl⟩
    exact (reader.bare_with_iff _ _).mpr h

/-- A line of text goes to the open field or to a paragraph. -/
theorem Sound.not_bare_readText (h : reader.Sound) (line : Line) : ¬(reader.readText line).Bare := by
  rw [Reader.readText]
  split
  next ref indent hcurrent =>
    have hopen := (Option.filter_eq_some_iff.mp hcurrent).1
    exact fun hbare => h.not_bare hopen hbare.of_addTo
  next =>
    intro hbare
    have hpending := hbare.pending
    simp at hpending

/-! ### Lines that leave nothing -/

theorem isFence_of_blank (h : isBlankText line = true) : isFence line = false := by
  have hnil := trimStart_append (List.all_eq_true.mp h) []
  rw [List.append_nil] at hnil
  rw [isFence, hnil]
  rfl

theorem Bare.step_blank (h : reader.Bare) (hblank : isBlankText line = true) :
    reader.step line = { reader with current := none } := by
  simp [step, h.code, isFence_of_blank hblank, readLine, hblank, h.endParagraph]

theorem Bare.step_header (h : reader.Bare) {header : Bullet} (hbullet : Bullet.ofLine? line = some header)
    (hheader : header.isHeader = true) (hlist : reader.listHolds header.indent = false) :
    reader.step line = { reader with listIndent := some header.indent, current := none } := by
  have hfield := (Bullet.isLabel hbullet).ofLabel?_eq_parameters_iff.mpr hheader
  have hended := ((reader.bare_with_iff none reader.current).mpr h).endParagraph
  have hread : reader.step line = reader.readBullet line header := by
    simp [step, h.code, isFence_of_bullet hbullet, readLine, isBlankText_of_bullet hbullet, hbullet]
  rw [hread]
  simp [readBullet, hlist, hfield, hended, openField]

theorem Sound.bare_of_readBullet (h : reader.Sound) {bullet : Bullet} (hbullet : Bullet.ofLine? line = some bullet)
    (hbare : (reader.readBullet line bullet).Bare) : reader.Bare ∧ reader.Ignores line := by
  rw [Reader.readBullet] at hbare
  split at hbare
  next => exact absurd hbare Bare.of_openParameter
  next hlist =>
    dsimp only at hbare
    split at hbare
    next field hfield =>
      obtain ⟨hended, rfl⟩ := bare_openField_iff.mp hbare
      refine ⟨(reader.bare_with_iff none reader.current).mp hended.of_endParagraph, .inr ⟨bullet, hbullet, ?_, ?_⟩⟩
      · exact (Bullet.isLabel hbullet).ofLabel?_eq_parameters_iff.mp hfield
      · exact Bool.eq_false_iff.mpr hlist
    next => exact absurd hbare ((h.closeList none).not_bare_readText line)

/-- A line that is not ignored leaves something, and no line takes away what is there. -/
theorem Sound.bare_of_step (h : reader.Sound) (hbare : (reader.step line).Bare) :
    reader.Bare ∧ reader.Ignores line := by
  rw [Reader.step] at hbare
  split at hbare
  next =>
    split at hbare
    next => simpa using hbare.finished
    next => cases hbare.code
  next =>
    split at hbare
    next => cases hbare.code
    next =>
      rw [Reader.readLine] at hbare
      split at hbare
      next hblank =>
        have hended := (reader.endParagraph.bare_with_iff _ _).mp hbare
        exact ⟨hended.of_endParagraph, .inl hblank⟩
      next =>
        split at hbare
        next bullet hbullet => exact h.bare_of_readBullet hbullet hbare
        next => exact absurd hbare (h.not_bare_readText line)

theorem bare_step_iff (h : reader.Sound) (line : Line) :
    (reader.step line).Bare ↔ reader.Bare ∧ reader.Ignores line := by
  refine ⟨h.bare_of_step, ?_⟩
  rintro ⟨hbare, hblank | ⟨header, hbullet, hheader, hlist⟩⟩
  · rw [hbare.step_blank hblank]
    exact (reader.bare_with_iff _ _).mpr hbare
  · rw [hbare.step_header hbullet hheader hlist]
    exact (reader.bare_with_iff _ _).mpr hbare

/-! ### The end of a body -/

theorem bare_endCode_iff : reader.endCode.Bare ↔ reader.Bare := by
  rw [endCode]
  split
  next lines hcode =>
    refine ⟨fun h => ?_, fun h => ?_⟩
    · have hfinished := h.finished
      simp at hfinished
    · rw [h.code] at hcode
      cases hcode
  next => rfl

theorem bare_endParagraph_iff : reader.endParagraph.Bare ↔ reader.Bare :=
  ⟨Bare.of_endParagraph, fun h => h.endParagraph.symm ▸ h⟩

/-- A reader that holds something has a result that says something. -/
theorem Sound.result_isEmpty_iff (h : reader.Sound) : reader.result.isEmpty = true ↔ reader.Bare := by
  have hsummary : reader.endCode.endParagraph.documentation.summary = none := by
    rw [endParagraph_documentation, endCode_documentation, h.summary]
  have hcode : reader.endCode.endParagraph.code = none := (endParagraph_code _).trans reader.endCode_code
  have hpending := reader.endCode.endParagraph_pending
  rw [← bare_endCode_iff, ← bare_endParagraph_iff, result]
  generalize reader.endCode.endParagraph = last at hsummary hcode hpending ⊢
  dsimp only
  split
  next summary rest hfinished =>
    refine ⟨fun hempty => ?_, fun hbare => ?_⟩
    · simp [Documentation.isEmpty] at hempty
    · rw [hbare.finished] at hfinished
      cases hfinished
  next =>
    simp only [Documentation.isEmpty, hsummary, Option.isNone_none, Bool.true_and, Bool.and_eq_true, List.isEmpty_iff,
      List.map_eq_nil_iff, Option.isNone_iff_eq_none]
    refine ⟨?_, fun hbare => ⟨⟨⟨⟨hbare.finished, hbare.parameters⟩, hbare.returns⟩, hbare.throws⟩, hbare.callouts⟩⟩
    rintro ⟨⟨⟨⟨hfinished, hparameters⟩, hreturns⟩, hthrows⟩, hcallouts⟩
    exact ⟨hfinished, hpending, hcode, hparameters, hreturns, hthrows, hcallouts⟩

end Reader

/-! ### Headers alone -/

/-- All that is not blank opens lists of parameters, none indented deeper than the one before. -/
structure OnlyHeaders (lines : List Line) : Prop where
  header : ∀ line ∈ lines, isBlankText line = false →
    ∃ header, Bullet.ofLine? line = some header ∧ header.isHeader = true
  indents : (lines.filterMap Bullet.ofLine?).Pairwise fun header next => next.indent ≤ header.indent

section

variable {line : Line} {rest : List Line}

theorem onlyHeaders_nil : OnlyHeaders [] :=
  ⟨by simp, .nil⟩

theorem ofLine?_of_blank (h : isBlankText line = true) : Bullet.ofLine? line = none := by
  cases hbullet : Bullet.ofLine? line with
  | none => rfl
  | some bullet =>
    rw [isBlankText_of_bullet hbullet] at h
    cases h

theorem onlyHeaders_cons_blank (h : isBlankText line = true) : OnlyHeaders (line :: rest) ↔ OnlyHeaders rest := by
  have hbullets : (line :: rest).filterMap Bullet.ofLine? = rest.filterMap Bullet.ofLine? :=
    List.filterMap_cons_none (ofLine?_of_blank h)
  constructor
  · intro hlines
    exact ⟨fun other hother => hlines.header other (.tail line hother), hbullets ▸ hlines.indents⟩
  · intro hrest
    refine ⟨fun other hother htext => ?_, hbullets.symm ▸ hrest.indents⟩
    rcases List.mem_cons.mp hother with rfl | hother
    · rw [h] at htext
      cases htext
    · exact hrest.header other hother htext

theorem onlyHeaders_cons_header {header : Bullet} (hbullet : Bullet.ofLine? line = some header)
    (hheader : header.isHeader = true) :
    OnlyHeaders (line :: rest) ↔
      OnlyHeaders rest ∧ ∀ next ∈ rest.filterMap Bullet.ofLine?, next.indent ≤ header.indent := by
  have hbullets : (line :: rest).filterMap Bullet.ofLine? = header :: rest.filterMap Bullet.ofLine? :=
    List.filterMap_cons_some hbullet
  constructor
  · intro hlines
    have hindents := hlines.indents
    rw [hbullets] at hindents
    obtain ⟨hfirst, hlater⟩ := List.pairwise_cons.mp hindents
    exact ⟨⟨fun other hother => hlines.header other (.tail line hother), hlater⟩, hfirst⟩
  · rintro ⟨hrest, hfirst⟩
    refine ⟨fun other hother htext => ?_, hbullets.symm ▸ List.pairwise_cons.mpr ⟨hfirst, hrest.indents⟩⟩
    rcases List.mem_cons.mp hother with rfl | hother
    · exact ⟨header, hbullet, hheader⟩
    · exact hrest.header other hother htext

end

namespace Reader

variable {reader : Reader}

theorem listHolds_of_le {indent next : Nat} (h : reader.listHolds indent = false) (hnext : next ≤ indent) :
    reader.listHolds next = false := by
  cases hlist : reader.listIndent with
  | none => simp [listHolds, hlist]
  | some limit =>
    simp only [listHolds, hlist, Option.any_some, decide_eq_false_iff_not, Nat.not_lt] at h ⊢
    exact Nat.le_trans hnext h

/-- What a run of lines leaves nothing of: headers alone, none an item of the list that is open before them. -/
theorem Sound.bare_foldl_iff (lines : List Line) : ∀ {reader : Reader}, reader.Sound →
    ((lines.foldl Reader.step reader).Bare ↔
      reader.Bare ∧ OnlyHeaders lines ∧
        ∀ header ∈ lines.filterMap Bullet.ofLine?, reader.listHolds header.indent = false) := by
  induction lines with
  | nil => exact fun _ => ⟨fun hbare => ⟨hbare, onlyHeaders_nil, by simp⟩, And.left⟩
  | cons line rest ih =>
    intro reader h
    rw [List.foldl_cons, ih (h.step line), bare_step_iff h]
    constructor
    · rintro ⟨⟨hbare, hblank | ⟨header, hbullet, hheader, hholds⟩⟩, hrest, hlist⟩
      · rw [hbare.step_blank hblank] at hlist
        rw [onlyHeaders_cons_blank hblank, List.filterMap_cons_none (ofLine?_of_blank hblank)]
        exact ⟨hbare, hrest, hlist⟩
      · rw [hbare.step_header hbullet hheader hholds] at hlist
        -- The new list holds no later header, so the list before it does not either.
        have hindents : ∀ next ∈ rest.filterMap Bullet.ofLine?, next.indent ≤ header.indent := fun next hnext => by
          simpa [listHolds] using hlist next hnext
        rw [onlyHeaders_cons_header hbullet hheader, List.filterMap_cons_some hbullet]
        exact ⟨hbare, ⟨hrest, hindents⟩,
          List.forall_mem_cons.mpr ⟨hholds, fun next hnext => listHolds_of_le hholds (hindents next hnext)⟩⟩
    · rintro ⟨hbare, hlines, hlist⟩
      cases hblank : isBlankText line with
      | true =>
        rw [onlyHeaders_cons_blank hblank] at hlines
        rw [List.filterMap_cons_none (ofLine?_of_blank hblank)] at hlist
        rw [hbare.step_blank hblank]
        exact ⟨⟨hbare, .inl hblank⟩, hlines, hlist⟩
      | false =>
        obtain ⟨header, hbullet, hheader⟩ := hlines.header line List.mem_cons_self hblank
        obtain ⟨hrest, hindents⟩ := (onlyHeaders_cons_header hbullet hheader).mp hlines
        rw [List.filterMap_cons_some hbullet] at hlist
        have hholds := hlist header List.mem_cons_self
        rw [hbare.step_header hbullet hheader hholds]
        refine ⟨⟨hbare, .inr ⟨header, hbullet, hheader, hholds⟩⟩, hrest, fun next hnext => ?_⟩
        simpa [listHolds] using hindents next hnext

/-- Nothing that follows takes away what a reader holds. -/
theorem Sound.bare_of_foldl {lines : List Line} (h : reader.Sound) (hbare : (lines.foldl Reader.step reader).Bare) :
    reader.Bare :=
  ((Sound.bare_foldl_iff lines h).mp hbare).1

end Reader

/-- A body is empty exactly if it has nothing but blank lines and headers of lists of parameters, none deeper than the
one before; a comment is then refused as empty. Any other line makes the documentation not empty, wherever it stands. -/
theorem readBody_isEmpty_iff (lines : List Line) :
    ((readBody lines).isEmpty = true ↔ OnlyHeaders lines) ∧
      (∀ comment : String, body comment.toList = .ok lines → (read comment = .error .empty ↔ OnlyHeaders lines)) ∧
      ∀ before line after, lines = before ++ line :: after → ¬(before.foldl Reader.step {}).Ignores line →
        (readBody lines).isEmpty = false := by
  have hempty : (readBody lines).isEmpty = true ↔ OnlyHeaders lines := by
    rw [readBody, (Reader.sound_empty.foldl lines).result_isEmpty_iff,
      Reader.Sound.bare_foldl_iff lines Reader.sound_empty]
    exact ⟨fun h => h.2.1, fun h => ⟨Reader.bare_empty, h, fun _ _ => rfl⟩⟩
  refine ⟨hempty, fun comment hbody => ?_, ?_⟩
  · rw [read_of_body hbody, ← hempty]
    cases (readBody lines).isEmpty <;> simp
  · rintro before line after rfl hline
    refine Bool.eq_false_iff.mpr fun hbody => hline ?_
    have hbefore := Reader.sound_empty.foldl before
    rw [readBody, (Reader.sound_empty.foldl _).result_isEmpty_iff, List.foldl_append, List.foldl_cons] at hbody
    exact (hbefore.bare_of_step ((hbefore.step line).bare_of_foldl hbody)).2

/-- Two lists without items, the later one less deep; the other way round the later line is an item of the first. -/
theorem readBody_isEmpty_iff_nested :
    let comment := "///   - Parameters: both\n///\n/// * PARAMETERS:"
    let first := "  - Parameters: both".toList
    let second := "* PARAMETERS:".toList
    body comment.toList = .ok [first, [], second] ∧ OnlyHeaders [first, [], second] ∧
      read comment = .error .empty ∧
      ¬(([second, []] : List Line).foldl Reader.step {}).Ignores first ∧
      (readBody [second, [], first]).isEmpty = false := by
  have hbody : body "///   - Parameters: both\n///\n/// * PARAMETERS:".toList =
      .ok ["  - Parameters: both".toList, [], "* PARAMETERS:".toList] := rfl
  intro comment first second
  have hempty : (readBody [first, [], second]).isEmpty = true := by decide +kernel
  have hquiet := (readBody_isEmpty_iff [first, [], second]).1.mp hempty
  have hitem : Bullet.ofLine? first = some ⟨2, "Parameters".toList, "both".toList⟩ := by decide +kernel
  have hholds : (([second, []] : List Line).foldl Reader.step {}).listHolds 2 = true := by decide +kernel
  have hread : ¬(([second, []] : List Line).foldl Reader.step {}).Ignores first := by
    rintro (hblank | ⟨header, hheader, -, hlist⟩)
    · rw [isBlankText_of_bullet hitem] at hblank
      cases hblank
    · obtain rfl := Option.some.inj (hitem.symm.trans hheader)
      rw [hholds] at hlist
      cases hlist
  exact ⟨hbody, hquiet, ((readBody_isEmpty_iff _).2.1 comment hbody).mpr hquiet, hread,
    (readBody_isEmpty_iff _).2.2 [second, []] first [] rfl hread⟩

end Markup

end DocIndex
