import DocIndex.Proofs.Text.Trimmed

/-! # Visible characters and words

A text is its visible characters and the blanks between them, and the words are the runs of the former
(`flatten_words`). So words put together with single spaces are the words of what they give
(`words_intercalate`), and blanks around a text add none (`words_trimStart`). -/

namespace DocIndex.Text

/-! ### Visible characters -/

/-- The characters of a text that are not blank. -/
def visible (text : List Char) : List Char :=
  text.filter fun c => !isBlank c

theorem visible_append (first second : List Char) : visible (first ++ second) = visible first ++ visible second :=
  List.filter_append ..

theorem visible_visible (text : List Char) : visible (visible text) = visible text := by
  simp [visible, List.filter_filter]

theorem visible_eq_nil {text : List Char} (h : ∀ c ∈ text, isBlank c = true) : visible text = [] := by
  simpa [visible] using h

theorem visible_dropWhile {p : Char → Bool} (h : ∀ c, p c = true → isBlank c = true) (text : List Char) :
    visible (text.dropWhile p) = visible text := by
  have hdropped : visible (text.takeWhile p) = [] :=
    visible_eq_nil fun c hc => h c (List.all_eq_true.mp List.all_takeWhile c hc)
  conv => rhs; rw [← List.takeWhile_append_dropWhile (p := p) (l := text), visible_append, hdropped]
  rfl

theorem visible_reverse (text : List Char) : visible text.reverse = (visible text).reverse :=
  List.filter_reverse ..

theorem visible_dropWhileEnd {p : Char → Bool} (h : ∀ c, p c = true → isBlank c = true) (text : List Char) :
    visible (text.reverse.dropWhile p).reverse = visible text := by
  rw [visible_reverse, visible_dropWhile h, visible_reverse, List.reverse_reverse]

theorem visible_trim (text : List Char) : visible (trim text) = visible text := by
  rw [trim, trimEnd, visible_dropWhileEnd (fun _ => id), trimStart, visible_dropWhile (fun _ => id)]

theorem flatten_splitOnP (p : Char → Bool) (text : List Char) :
    (text.splitOnP p).flatten = text.filter fun c => !p c := by
  induction text with
  | nil => simp [List.splitOnP_nil]
  | cons c rest ih =>
    obtain ⟨piece, pieces, hpieces⟩ := List.exists_cons_of_ne_nil (List.splitOnP_ne_nil p rest)
    rw [List.splitOnP_cons_eq_if_modifyHead]
    cases hc : p c with
    | false => rw [hpieces] at ih ⊢; simpa [hc] using ih
    | true => simpa [hc] using ih

theorem flatten_words (text : List Char) : (words text).flatten = visible text := by
  rw [words, List.flatten_filter_not_isEmpty, flatten_splitOnP, visible]

/-! ### Words -/

theorem words_append_blank {c : Char} (hc : isBlank c = true) (first second : List Char) :
    words (first ++ c :: second) = words first ++ words second := by
  rw [words, List.splitOnP_append_cons first second hc, List.filter_append, words, words]

theorem words_trimStart (text : List Char) : words (trimStart text) = words text := by
  induction text with
  | nil => rfl
  | cons c rest ih =>
    cases hc : isBlank c with
    | false => rw [trimStart_cons hc]
    | true =>
      have hskip : trimStart (c :: rest) = trimStart rest := List.dropWhile_cons_of_pos hc
      have hblank := words_append_blank hc [] rest
      rw [hskip, ih]
      exact hblank.symm

theorem isWord_of_mem_words {text word : List Char} (h : word ∈ words text) : IsWord word := by
  have hne : word ≠ [] := by simpa using (List.mem_filter.mp h).2
  refine ⟨hne, fun c hc => ?_⟩
  have hvisible : c ∈ visible text := flatten_words text ▸ List.mem_flatten_of_mem h hc
  simpa using (List.mem_filter.mp hvisible).2

theorem isBlank_or_mem_words {text : List Char} {c : Char} (h : c ∈ text) :
    isBlank c = true ∨ ∃ word ∈ words text, c ∈ word := by
  cases hc : isBlank c with
  | true => exact .inl rfl
  | false =>
    have hvisible : c ∈ visible text := List.mem_filter.mpr ⟨h, by simp [hc]⟩
    rw [← flatten_words] at hvisible
    exact .inr (List.mem_flatten.mp hvisible)

theorem words_intercalate {pieces : List (List Char)} (h : ∀ piece ∈ pieces, IsWord piece) :
    words ([' '].intercalate pieces) = pieces := by
  induction pieces with
  | nil => rfl
  | cons word rest ih =>
    obtain ⟨hword, hrest⟩ := List.forall_mem_cons.mp h
    cases rest with
    | nil => rw [List.intercalate_singleton, words_word hword]
    | cons next rest =>
      rw [List.intercalate_cons_cons, List.append_assoc, List.singleton_append,
        words_word_append hword (by decide), ih hrest]

theorem words_compact (text : List Char) : words (compact text) = words text :=
  words_intercalate fun _ => isWord_of_mem_words

end DocIndex.Text
