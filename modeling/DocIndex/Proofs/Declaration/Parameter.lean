import DocIndex.Declaration.Parameter
import DocIndex.Proofs.Declaration.Attribute
import DocIndex.Proofs.Text.Words

/-! # Associated values read again

An associated value is cut at its first equal sign, and what stands before that at its first colon if only labels come
before the colon. Rendered, it is the same value with other blanks around its parts: its labels and its type are read
and scanned as before (`exists_respelled`), so the equal sign is found in its place (`rereads_render`) and a list of
values falls apart at the same commas (`parseAssociated_renderAll`), whatever the text that the list was read from. -/

namespace DocIndex.Parameter

open Text

variable {text before type element : List Char}

/-! ### Labels -/

/-- Labels and the blanks between them hold no bracket, no quote and no sign at which a value is cut. -/
theorem isPlain_of_areLabels (h : areLabels (words text) = true) :
    ∀ c ∈ text, isPlain c = true ∧ c ∉ [',', '=', ':'] := by
  intro c hc
  simp only [areLabels, Bool.and_eq_true, List.all_eq_true] at h
  have hclass : (isBlank c || (isAlphanumeric c || c == '_')) = true := by
    rcases isBlank_or_mem_words hc with hblank | ⟨word, hword, hmem⟩
    · rw [hblank, Bool.true_or]
    · rw [h.2 word hword c hmem, Bool.or_true]
  have hmarks : c ∉ scanMarks ++ [',', '=', ':'] :=
    not_mem_of_all_not (p := fun c => isBlank c || (isAlphanumeric c || c == '_')) (by decide) hclass
  rw [List.mem_append, not_or] at hmarks
  exact ⟨isPlain_of_not_mem hmarks.1, hmarks.2⟩

/-- The text starts with labels and a colon. -/
structure Labelled (text before type : List Char) : Prop where
  cut : cutTop ':' text = some (before, type)
  labels : areLabels (words before) = true

theorem ofTyped_of_labelled (h : Labelled text before type) (value : Option String) :
    ofTyped text value =
      { firstName := (words before)[0]?.map String.ofList
        secondName := (words before)[1]?.map String.ofList
        type := some (String.ofList (trim type))
        defaultValue := value } := by
  simp only [ofTyped, h.cut, h.labels, if_true]

theorem ofTyped_of_not_labelled (h : ¬∃ before type, Labelled text before type) (value : Option String) :
    ofTyped text value = { type := some (String.ofList text), defaultValue := value } := by
  rw [ofTyped]
  split
  next before type hcut =>
    have hlabels : areLabels (words before) = false :=
      Bool.eq_false_iff.mpr fun hlabels => h ⟨before, type, hcut, hlabels⟩
    simp only [hlabels, Bool.false_eq_true, if_false]
  next => rfl

/-- The default value with the sign before it. -/
def valueText : Option String → List Char
  | some value => [' ', '=', ' '] ++ value.toList
  | none => []

theorem toList_render_bare (type : List Char) (value : Option String) :
    (render { type := some (String.ofList type), defaultValue := value }).toList = type ++ valueText value := by
  cases value <;> simp [render, renderStart, renderType, names, valueText]

theorem toList_render_labelled {labels : List (List Char)} (h : areLabels labels = true) (type : List Char)
    (value : Option String) :
    (render
        { firstName := labels[0]?.map String.ofList
          secondName := labels[1]?.map String.ofList
          type := some (String.ofList type)
          defaultValue := value }).toList =
      [' '].intercalate labels ++ ([':', ' '] ++ type) ++ valueText value := by
  simp only [areLabels, Bool.and_eq_true, decide_eq_true_eq, Bool.not_eq_true', List.isEmpty_eq_false_iff] at h
  obtain ⟨⟨hne, hlength⟩, -⟩ := h
  obtain ⟨first, rest, rfl⟩ := List.exists_cons_of_ne_nil hne
  rcases rest with _ | ⟨second, _ | ⟨third, rest⟩⟩
  · cases value <;> simp [render, renderStart, renderType, names, valueText]
  · cases value <;> simp [render, renderStart, renderType, names, valueText]
  · simp at hlength

/-! ### Labels and types -/

/-- Another spelling of the labels and the type of a value: it is read as the same, and scanned alike. -/
structure Respelled (text other : List Char) : Prop where
  reads : ∀ value, ofTyped (trim other) value = ofTyped text value
  level : (Scan.start.after other).level = (Scan.start.after text).level
  whole : ∀ mark, mark = ',' ∨ mark = '=' → cutTop mark text = none → cutTop mark other = none

theorem Labelled.trim (h : Labelled text before type) : Labelled (trim text) (trimStart before) (trimEnd type) where
  cut := cutTop_trim_eq_some (by decide) h.cut
  labels := by rw [words_trimStart]; exact h.labels

/-- The labels with single spaces between them, a colon and a space, and the type. -/
theorem Labelled.spaced (h : Labelled text before type) :
    Labelled (compact before ++ ([':', ' '] ++ Text.trim type)) (compact before) (' ' :: Text.trim type) where
  cut := by
    have hlabels : areLabels (words (compact before)) = true := by rw [words_compact]; exact h.labels
    have hplain := isPlain_of_areLabels hlabels
    refine cutTopFrom_eq_some_iff.mpr ⟨rfl, cutTopFrom_of_not_mem (fun hmem => ?_) _, ?_⟩
    · exact (hplain ':' hmem).2 (by simp)
    · rw [Scan.isTop_eq (Scan.level_after_plain (fun c hc => (hplain c hc).1) .start)]
      rfl
  labels := by rw [words_compact]; exact h.labels

theorem Labelled.respelled (h : Labelled text before type) :
    Respelled text (compact before ++ ([':', ' '] ++ Text.trim type)) := by
  obtain ⟨htext, -⟩ := cutTopFrom_eq_some_iff.mp h.cut
  have hbefore := isPlain_of_areLabels h.labels
  have hcompact := isPlain_of_areLabels h.spaced.labels
  -- The labels and the colon are a link after nothing.
  have hlink : before ++ [':'] ≠ [] ∧ ∀ c ∈ before ++ [':'], isPlain c = true := by
    refine ⟨by simp, List.forall_mem_append.mpr ⟨fun c hc => (hbefore c hc).1, ?_⟩⟩
    exact List.forall_mem_singleton.mpr (by decide)
  have hspaced : compact before ++ [':', ' '] ≠ [] ∧ ∀ c ∈ compact before ++ [':', ' '], isPlain c = true := by
    refine ⟨by simp, List.forall_mem_append.mpr ⟨fun c hc => (hcompact c hc).1, ?_⟩⟩
    exact List.all_eq_true.mp (by decide)
  have hlinked : text = [] ++ (before ++ [':'] ++ type) := by simp [htext]
  have hrespelled : compact before ++ ([':', ' '] ++ Text.trim type) =
      [] ++ (compact before ++ [':', ' '] ++ Text.trim type) := by simp
  refine ⟨fun value => ?_, ?_, fun mark hmark hnone => ?_⟩
  · have htype : Text.trim (trimEnd (' ' :: Text.trim type)) = Text.trim type := by
      rw [trim_trimEnd, trim_space_cons, (trimmed_trim type).trim]
    rw [ofTyped_of_labelled h, ofTyped_of_labelled h.spaced.trim, words_trimStart, words_compact, htype]
  · rw [hrespelled, hlinked]
    exact Scan.level_after_spaced hlink hspaced rfl type
  · have hblank : isBlank mark = false := by
      rcases hmark with rfl | rfl <;> decide
    have habsent : mark ∉ compact before ++ [':', ' '] := fun hmem => by
      rcases List.mem_append.mp hmem with hmem | hmem
      · exact (hcompact mark hmem).2 (by rcases hmark with rfl | rfl <;> simp)
      · rcases hmark with rfl | rfl <;> exact absurd hmem (by decide)
    rw [hlinked] at hnone
    rw [hrespelled]
    exact cutTop_spaced hlink hspaced rfl type hblank habsent rfl hnone

/-- What a value renders to starts with another spelling of its labels and its type. -/
theorem exists_respelled (h : Trimmed text) :
    ∃ other, Respelled text other ∧ ∀ value, (ofTyped text value).render.toList = other ++ valueText value := by
  by_cases hlabelled : ∃ before type, Labelled text before type
  · obtain ⟨before, type, hlabelled⟩ := hlabelled
    refine ⟨_, hlabelled.respelled, fun value => ?_⟩
    rw [ofTyped_of_labelled hlabelled, toList_render_labelled hlabelled.labels, compact]
  · refine ⟨text, ⟨fun value => by rw [h.trim], rfl, fun _ _ hnone => hnone⟩, fun value => ?_⟩
    rw [ofTyped_of_not_labelled hlabelled, toList_render_bare]

/-! ### Elements -/

/-- A text from which an element is read again, with no other commas at the top level. -/
structure Rereads (element rendered : List Char) : Prop where
  reads : ofElement (trim rendered) = ofElement element
  isTop : (Scan.start.after rendered).isTop = (Scan.start.after element).isTop
  whole : cutTop ',' element = none → cutTop ',' rendered = none

theorem ofElement_of_some {typed value : List Char} (h : cutTop '=' element = some (typed, value)) :
    ofElement element = ofTyped (trim typed) (some (String.ofList (trim value))) := by
  rw [ofElement, h]

theorem ofElement_of_none (h : cutTop '=' element = none) : ofElement element = ofTyped element none := by
  rw [ofElement, h]

theorem rereads_of_some {typed value other : List Char} (h : cutTop '=' element = some (typed, value))
    (hother : Respelled (trim typed) other) : Rereads element (other ++ ([' ', '=', ' '] ++ trim value)) := by
  obtain ⟨rfl, hnone, htop⟩ := cutTopFrom_eq_some_iff.mp h
  have hlevel : (Scan.start.after other).level = (Scan.start.after typed).level :=
    hother.level.trans (Scan.settled_start.level_after_trim typed)
  have hlink : ['='] ≠ [] ∧ ∀ c ∈ ['='], isPlain c = true := ⟨by simp, List.all_eq_true.mp (by decide)⟩
  have hspaced : [' ', '=', ' '] ≠ [] ∧ ∀ c ∈ [' ', '=', ' '], isPlain c = true :=
    ⟨by simp, List.all_eq_true.mp (by decide)⟩
  have htyped : ∀ mark, mark = ',' ∨ mark = '=' → cutTop mark typed = none → cutTop mark other = none := by
    intro mark hmark htyped
    have hblank : isBlank mark = false := by
      rcases hmark with rfl | rfl <;> decide
    exact hother.whole mark hmark ((cutTopFrom_trim hblank Scan.settled_start typed).mpr htyped)
  refine ⟨?_, Scan.isTop_eq (Scan.level_after_spaced hlink hspaced hlevel value), fun hcomma => ?_⟩
  · have hcut : cutTop '=' (other ++ ([' ', '=', ' '] ++ trim value)) = some (other ++ [' '], ' ' :: trim value) := by
      refine cutTopFrom_eq_some_iff.mpr ⟨by simp, ?_, ?_⟩
      · exact cutTopFrom_append_eq_none.mpr ⟨htyped '=' (.inr rfl) hnone, cutTopFrom_of_not_mem (by decide) _⟩
      · rw [Scan.after_append, Scan.isTop_eq (Scan.level_after_plain (List.all_eq_true.mp (by decide)) _),
          Scan.isTop_eq hlevel]
        exact htop
    have hleft : trim (trimStart (other ++ [' '])) = trim other := by
      rw [trim_trimStart, trim_append_blank isBlank_of_mem_space]
    have hright : trim (trimEnd (' ' :: trim value)) = trim value := by
      rw [trim_trimEnd, trim_space_cons, (trimmed_trim value).trim]
    rw [ofElement_of_some (cutTop_trim_eq_some (by decide) hcut), hleft, hright, hother.reads, ofElement_of_some h]
  · have hfirst := (cutTopFrom_append_eq_none.mp hcomma).1
    exact cutTop_spaced hlink hspaced hlevel value (by decide) (by decide) (htyped ',' (.inl rfl) hfirst)
      hcomma

theorem rereads_of_none {other : List Char} (h : cutTop '=' element = none) (hother : Respelled element other) :
    Rereads element other := by
  have hnone : cutTop '=' (trim other) = none :=
    (cutTopFrom_trim (by decide) Scan.settled_start other).mpr (hother.whole '=' (.inr rfl) h)
  refine ⟨?_, Scan.isTop_eq hother.level, hother.whole ',' (.inl rfl)⟩
  rw [ofElement_of_none hnone, ofElement_of_none h, hother.reads]

theorem rereads_render (h : Trimmed element) : Rereads element (ofElement element).render.toList := by
  cases hcut : cutTop '=' element with
  | none =>
    obtain ⟨other, hother, hrender⟩ := exists_respelled h
    rw [ofElement_of_none hcut, hrender, valueText, List.append_nil]
    exact rereads_of_none hcut hother
  | some parts =>
    obtain ⟨typed, value⟩ := parts
    obtain ⟨other, hother, hrender⟩ := exists_respelled (trimmed_trim typed)
    rw [ofElement_of_some hcut, hrender, valueText, String.toList_ofList]
    exact rereads_of_some hcut hother

theorem defaultValue_ofTyped (text : List Char) (value : Option String) : (ofTyped text value).defaultValue = value := by
  by_cases hlabelled : ∃ before type, Labelled text before type
  · obtain ⟨before, type, hlabelled⟩ := hlabelled
    rw [ofTyped_of_labelled hlabelled]
  · rw [ofTyped_of_not_labelled hlabelled]

theorem ofElement_nil : ofElement [] = { type := some "" } :=
  rfl

/-- Nothing but the empty text is read as a value with nothing in it. -/
theorem eq_nil_of_ofElement (h : ofElement element = ofElement []) : element = [] := by
  rw [ofElement_nil] at h
  cases hcut : cutTop '=' element with
  | some parts =>
    have hvalue := congrArg defaultValue h
    rw [ofElement_of_some hcut, defaultValue_ofTyped] at hvalue
    cases hvalue
  | none =>
    rw [ofElement_of_none hcut] at h
    by_cases hlabelled : ∃ before type, Labelled element before type
    · obtain ⟨before, type, hlabelled⟩ := hlabelled
      have hname := congrArg firstName h
      have hlabels := hlabelled.labels
      rw [ofTyped_of_labelled hlabelled] at hname
      cases hwords : words before with
      | nil => rw [hwords] at hlabels; cases hlabels
      | cons first rest => rw [hwords] at hname; cases hname
    · have htype := congrArg type h
      rw [ofTyped_of_not_labelled hlabelled] at htype
      simpa using htype

/-! ### Lists of values -/

theorem insideParentheses_enclosed (inner : List Char) : insideParentheses ('(' :: (inner ++ [')'])) = inner := by
  have htrim : trim ('(' :: (inner ++ [')'])) = '(' :: (inner ++ [')']) :=
    (trimmed_parenthesized (by decide : Trimmed []) inner).trim
  rw [insideParentheses, htrim]
  simp

theorem toList_renderAll (parameters : List Parameter) :
    (renderAll parameters).toList = '(' :: ([',', ' '].intercalate (parameters.map (·.render.toList)) ++ [')']) := by
  simp [renderAll, Function.comp_def]

theorem apart_render {elements : List (List Char)} (htrimmed : ∀ element ∈ elements, Trimmed element)
    (h : Apart ',' elements) : Apart ',' (elements.map fun element => (ofElement element).render.toList) where
  whole := by
    refine List.forall_mem_map.mpr fun element helement => ?_
    exact (rereads_render (htrimmed element helement)).whole (h.whole element helement)
  ends := by
    refine List.pairwise_map.mpr (h.ends.imp_of_mem fun helement _ htop => ?_)
    rw [(rereads_render (htrimmed _ helement)).isTop]
    exact htop

/-- Associated values are read again from the list that they render to, whatever text they were read from. -/
theorem parseAssociated_renderAll (text : List Char) :
    parseAssociated (renderAll (parseAssociated text)).toList = parseAssociated text := by
  have helements : ∀ element ∈ splitTop ',' (insideParentheses text), Trimmed element ∧ element ≠ [] :=
    fun element => trimmed_of_mem_splitTop
  have hapart : Apart ',' (splitTop ',' (insideParentheses text)) := apart_splitTop (by decide) _
  rw [toList_renderAll, parseAssociated, insideParentheses_enclosed, parseAssociated]
  generalize splitTop ',' (insideParentheses text) = elements at helements hapart
  have hrendered := apart_render (fun element helement => (helements element helement).1) hapart
  rw [List.map_map, Function.comp_def, splitTop_intercalate (by decide) hrendered, List.map_map]
  have hkept : ∀ piece ∈ elements.map (trim ∘ fun element => (ofElement element).render.toList),
      (!piece.isEmpty) = true := by
    refine List.forall_mem_map.mpr fun element helement => ?_
    obtain ⟨htrimmed, hne⟩ := helements element helement
    have hreads := (rereads_render htrimmed).reads
    -- What is read from nothing is not the element.
    cases hempty : trim (ofElement element).render.toList with
    | nil =>
      rw [hempty] at hreads
      exact absurd (eq_nil_of_ofElement hreads.symm) hne
    | cons c rest => simp [hempty]
  rw [List.filter_eq_self.mpr hkept, List.map_map]
  refine List.map_congr_left fun element helement => ?_
  rw [Function.comp_apply, Function.comp_apply]
  exact (rereads_render (helements element helement).1).reads

end DocIndex.Parameter
