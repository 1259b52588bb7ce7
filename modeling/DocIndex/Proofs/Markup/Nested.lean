import DocIndex.Comment
import DocIndex.Markup.Reader
import DocIndex.Proofs.Text.Trimmed

/-! # Comments inside comments

A block comment may hold others, and ends at the `*/` that closes the last of them. The body of a comment is
found line by line, and there a block ends at its first `*/`. What follows on that line is dropped, but the
lines below it are read as if they stood outside of any comment. So comments that count as documentation are
refused exactly when such lines are no documentation by themselves (`read_eq_notDocumentation_iff`), and never
when no block holds another. -/

namespace DocIndex

open Text

namespace Comment

/-- Whether the last of `depth` open block comments is closed by the last two characters of a text. -/
def closes : Nat → List Char → Bool
  | 0, text => text.isEmpty
  | _ + 1, [] => false
  | depth + 1, '*' :: '/' :: rest => closes depth rest
  | depth + 1, '/' :: '*' :: rest => closes (depth + 2) rest
  | depth + 1, _ :: rest => closes (depth + 1) rest

/-- A comment from its first character to its last. -/
inductive IsWhole : List Char → Prop
  | line {text : List Char} (h : '\n' ∉ text) : IsWhole ('/' :: '/' :: text)
  | block {text : List Char} (h : closes 1 text = true) : IsWhole ('/' :: '*' :: text)

/-! ### Open blocks -/

theorem closes_cons {depth : Nat} {c : Char} {rest : List Char} (hend : c = '*' → rest.head? ≠ some '/')
    (hstart : c = '/' → rest.head? ≠ some '*') : closes (depth + 1) (c :: rest) = closes (depth + 1) rest := by
  rw [closes]
  · rintro rest' rfl rfl
    exact hend rfl rfl
  · rintro rest' rfl rfl
    exact hstart rfl rfl

theorem closes_trimStart (depth : Nat) (text : List Char) :
    closes (depth + 1) (trimStart text) = closes (depth + 1) text := by
  induction text with
  | nil => rfl
  | cons c rest ih =>
    cases hc : isBlank c with
    | false => rw [trimStart_cons hc]
    | true =>
      have hstep : closes (depth + 1) (c :: rest) = closes (depth + 1) rest := by
        apply closes_cons <;> rintro rfl <;> exact absurd hc (by decide)
      rw [hstep, ← ih, trimStart, List.dropWhile_cons_of_pos hc, trimStart]

/-- An open block is closed by the last two characters. -/
theorem end_suffix_of_closes {depth : Nat} {text : List Char} (h : closes (depth + 1) text = true) :
    ['*', '/'] <:+ text := by
  generalize hopen : depth + 1 = opened at h
  fun_induction closes opened text generalizing depth with
  | case1 => omega
  | case2 => cases h
  | case3 depth' rest ih =>
    cases depth' with
    | zero =>
      have hrest : rest = [] := by simpa [closes] using h
      exact hrest ▸ List.suffix_rfl
    | succ depth' => exact (ih rfl h).trans (List.suffix_append ['*', '/'] rest)
  | case4 depth' rest ih => exact (ih rfl h).trans (List.suffix_append ['/', '*'] rest)
  | case5 depth' c rest _ _ ih => exact (ih rfl h).trans (List.suffix_cons c rest)

/-- A block that is open at the end of a line is closed below it. -/
theorem exists_closes_of_suffix {depth : Nat} {rest text : List Char} (hrest : '\n' :: rest <:+ text)
    (h : closes (depth + 1) text = true) : ∃ depth', closes (depth' + 1) rest = true := by
  generalize hopen : depth + 1 = opened at h
  fun_induction closes opened text generalizing depth with
  | case1 => omega
  | case2 => cases h
  | case3 depth' below ih =>
    have hbelow : '\n' :: rest <:+ below := by simpa [List.suffix_cons_iff] using hrest
    cases depth' with
    | zero =>
      have hnil : below = [] := by simpa [closes] using h
      simp [hnil] at hbelow
    | succ depth' => exact ih hbelow rfl h
  | case4 depth' below ih =>
    have hbelow : '\n' :: rest <:+ below := by simpa [List.suffix_cons_iff] using hrest
    exact ih hbelow rfl h
  | case5 depth' c below _ _ ih =>
    rcases List.suffix_cons_iff.mp hrest with heq | hbelow
    · obtain ⟨-, rfl⟩ := List.cons.inj heq
      exact ⟨depth', h⟩
    · exact ih hbelow rfl h

/-- A block that opens right where a line starts is closed after its start, if the line closes more than it opens. -/
theorem hasPart_of_closes {depth : Nat} {line text : List Char} (hline : trimStart line = '/' :: '*' :: '*' :: text)
    (h : closes (depth + 1) line = true) : hasPart ['*', '/'] text = true := by
  rw [← closes_trimStart, hline, closes] at h
  rw [hasPart_iff_isInfix]
  by_cases hend : text.head? = some '/'
  · -- `/**/` closes no more than it opened, so the last `*/` stands after it.
    obtain ⟨rest, rfl⟩ := List.head?_eq_some_iff.mp hend
    rw [closes] at h
    exact (end_suffix_of_closes h).isInfix.trans (List.suffix_cons '/' rest).isInfix
  · rw [closes_cons (fun _ => hend) (fun hc => absurd hc (by decide))] at h
    exact (end_suffix_of_closes h).isInfix

theorem ne_nil_of_closes {depth : Nat} {text : List Char} (h : closes (depth + 1) text = true) : text ≠ [] := by
  rintro rfl
  cases h

theorem endsInText_of_closes {depth : Nat} {text : List Char} (h : closes (depth + 1) text = true) :
    EndsInText text := by
  obtain ⟨before, rfl⟩ := end_suffix_of_closes h
  exact EndsInText.append (by decide) (List.cons_ne_nil _ _) before

theorem exists_of_isDocumentation {text : List Char} (h : isDocumentation text = true) :
    ∃ rest, (trimStart text = '/' :: '/' :: '/' :: rest ∨ trimStart text = '/' :: '*' :: '*' :: rest) ∧
      rest.head? ≠ some '/' := by
  simp only [isDocumentation, Bool.and_eq_true, Bool.not_eq_true', ← Bool.not_eq_true, Bool.or_eq_true,
    List.isPrefixOf_iff_prefix, not_or] at h
  obtain ⟨⟨hfour, hempty⟩, ⟨rest, hrest⟩ | ⟨rest, hrest⟩⟩ := h
  · refine ⟨rest, .inl hrest.symm, fun hslash => hfour ?_⟩
    obtain ⟨more, rfl⟩ := List.head?_eq_some_iff.mp hslash
    exact ⟨more, hrest⟩
  · refine ⟨rest, .inr hrest.symm, fun hslash => hempty ?_⟩
    obtain ⟨more, rfl⟩ := List.head?_eq_some_iff.mp hslash
    exact ⟨more, hrest⟩

/-- The two kinds of comments that are documentation. -/
theorem IsWhole.cases_of_isDocumentation {comment : List Char} (h : IsWhole comment)
    (hdoc : isDocumentation comment = true) :
    (∃ text, comment = '/' :: '/' :: '/' :: text ∧ '\n' ∉ text ∧ text.head? ≠ some '/') ∨
      ∃ text, comment = '/' :: '*' :: '*' :: text ∧ closes 1 text = true := by
  obtain ⟨rest, hstart, hrest⟩ := exists_of_isDocumentation hdoc
  cases h with
  | @line text h =>
    rw [trimStart_cons (by decide)] at hstart
    obtain rfl : text = '/' :: rest := by simpa using hstart
    exact .inl ⟨rest, rfl, fun hmem => h (List.mem_cons_of_mem _ hmem), hrest⟩
  | @block text h =>
    rw [trimStart_cons (by decide)] at hstart
    obtain rfl : text = '*' :: rest := by simpa using hstart
    rw [closes_cons (fun _ => hrest) (fun hc => absurd hc (by decide))] at h
    exact .inr ⟨rest, rfl, h⟩

/-- A block with no other inside is closed by its first `*/`. -/
theorem closes_below_of_single {line rest : List Char} (hsingle : ¬['/', '*'] <:+: line ++ '\n' :: rest)
    (h : closes 1 (line ++ '\n' :: rest) = true) : ¬['*', '/'] <:+: line ∧ closes 1 rest = true := by
  induction line with
  | nil =>
    rw [List.nil_append, closes_cons (fun hc => absurd hc (by decide)) (fun hc => absurd hc (by decide))] at h
    exact ⟨by simp, h⟩
  | cons c line ih =>
    rw [List.cons_append, List.infix_cons_iff, not_or] at hsingle
    obtain ⟨hstart, hsingle⟩ := hsingle
    have hend : ¬['*', '/'] <+: c :: line := by
      rintro ⟨after, hafter⟩
      rw [← hafter] at h
      simp [closes] at h
    rw [List.cons_append, closes_cons] at h
    · obtain ⟨hline, hrest⟩ := ih hsingle h
      exact ⟨fun hpart => (List.infix_cons_iff.mp hpart).elim hend hline, hrest⟩
    · rintro rfl hslash
      cases line with
      | nil => simp at hslash
      | cons d line =>
        obtain rfl : d = '/' := by simpa using hslash
        exact hend ⟨line, rfl⟩
    · rintro rfl hstar
      obtain ⟨after, hafter⟩ := List.head?_eq_some_iff.mp hstar
      exact hstart ⟨after, by rw [hafter]; rfl⟩

end Comment

namespace Markup

/-- A block ends on one of the lines. -/
def HasEnd (lines : List Line) : Prop :=
  ∃ line ∈ lines, hasPart ['*', '/'] line = true

/-- The lines below the first one with the end of a block. -/
def belowEnd (lines : List Line) : List Line :=
  (lines.dropWhile fun line => !hasPart ['*', '/'] line).tail

/-- Lines that are documentation by themselves: blank ones, those behind a marker, and blocks that end at
their first `*/`. -/
inductive Documents : List Line → Prop
  | nil : Documents []
  | blank {line : Line} {rest : List Line} (h : isBlankText line = true) (hrest : Documents rest) :
    Documents (line :: rest)
  | marked {line text : Line} {rest : List Line} (h : trimStart line = '/' :: '/' :: '/' :: text)
    (htext : text.head? ≠ some '/') (hrest : Documents rest) : Documents (line :: rest)
  | block {line text : Line} {rest : List Line} (h : trimStart line = '/' :: '*' :: '*' :: text)
    (hend : HasEnd (text :: rest)) (hrest : Documents (belowEnd (text :: rest))) :
    Documents (line :: rest)

/-- The lines of a comment below the first `*/` after its start. -/
def below (comment : List Char) : List Line :=
  belowEnd (lines (comment.drop 3))

/-- No line opens a block that is still open below the last line. -/
def Settled : List Line → Prop
  | [] => True
  | line :: rest =>
    (∀ text, trimStart line = '/' :: '*' :: '*' :: text → HasEnd (text :: rest)) ∧
      Settled rest

/-- Whether lines outside of any block are taken for something else than documentation. -/
def Refused (lines : List Line) : Prop :=
  stripDelimiters none lines = .error .notDocumentation

/-! ### Below the end of a block -/

theorem HasEnd.cons {lines : List Line} (h : HasEnd lines) (line : Line) : HasEnd (line :: lines) := by
  obtain ⟨last, hmem, hlast⟩ := h
  exact ⟨last, List.mem_cons_of_mem line hmem, hlast⟩

theorem HasEnd.append {lines : List Line} (h : HasEnd lines) (more : List Line) : HasEnd (lines ++ more) := by
  obtain ⟨last, hmem, hlast⟩ := h
  exact ⟨last, List.mem_append_left more hmem, hlast⟩

theorem HasEnd.of_cons {line : Line} {rest : List Line} (h : HasEnd (line :: rest))
    (hline : hasPart ['*', '/'] line = false) : HasEnd rest := by
  obtain ⟨last, hmem, hlast⟩ := h
  rcases List.mem_cons.mp hmem with rfl | hmem
  · simp [hline] at hlast
  · exact ⟨last, hmem, hlast⟩

theorem not_hasEnd_nil : ¬HasEnd [] := by
  simp [HasEnd]

theorem belowEnd_cons_of_end {line : Line} (h : hasPart ['*', '/'] line = true) (rest : List Line) :
    belowEnd (line :: rest) = rest := by
  simp [belowEnd, h]

theorem belowEnd_cons {line : Line} (h : hasPart ['*', '/'] line = false) (rest : List Line) :
    belowEnd (line :: rest) = belowEnd rest := by
  simp [belowEnd, h]

theorem belowEnd_cons_suffix (line : Line) (rest : List Line) : belowEnd (line :: rest) <:+ rest := by
  rw [belowEnd, List.dropWhile_cons]
  split
  · exact (List.tail_suffix _).trans (List.dropWhile_suffix _)
  · exact List.suffix_rfl

theorem belowEnd_append {lines : List Line} (h : HasEnd lines) (more : List Line) :
    belowEnd (lines ++ more) = belowEnd lines ++ more := by
  induction lines with
  | nil => exact absurd h not_hasEnd_nil
  | cons line rest ih =>
    cases hline : hasPart ['*', '/'] line with
    | true => rw [List.cons_append, belowEnd_cons_of_end hline, belowEnd_cons_of_end hline]
    | false =>
      rw [List.cons_append, belowEnd_cons hline, belowEnd_cons hline, ih (h.of_cons hline)]

theorem Settled.of_suffix {rest lines : List Line} (h : Settled lines) (hrest : rest <:+ lines) : Settled rest := by
  obtain ⟨above, rfl⟩ := hrest
  induction above with
  | nil => exact h
  | cons line above ih => exact ih h.2

theorem hasEnd_lines {depth : Nat} {text : List Char} (h : Comment.closes (depth + 1) text = true) :
    HasEnd (lines text) := by
  induction text using lineInduction generalizing depth with
  | single line hline =>
    rw [lines_single hline (Comment.ne_nil_of_closes h)]
    exact ⟨line, List.mem_singleton_self line, hasPart_iff_isInfix.mpr (Comment.end_suffix_of_closes h).isInfix⟩
  | above line rest hline ih =>
    obtain ⟨depth', hrest⟩ := Comment.exists_closes_of_suffix (List.suffix_append line _) h
    rw [lines_append_cons hline]
    exact (ih hrest).cons _

theorem settled_lines {depth : Nat} {text : List Char} (h : Comment.closes (depth + 1) text = true) :
    Settled (lines text) := by
  induction text using lineInduction generalizing depth with
  | single line hline =>
    rw [lines_single hline (Comment.ne_nil_of_closes h)]
    exact ⟨fun text htext => ⟨text, List.mem_cons_self, Comment.hasPart_of_closes htext h⟩, trivial⟩
  | above line rest hline ih =>
    obtain ⟨depth', hrest⟩ := Comment.exists_closes_of_suffix (List.suffix_append line _) h
    rw [lines_append_cons hline]
    refine ⟨fun text _ => ?_, ih hrest⟩
    exact (hasEnd_lines hrest).cons text

/-! ### Lines that are refused -/

theorem map_eq_error_iff {α β : Type} {f : α → β} {result : Except Error α} {error : Error} :
    result.map f = .error error ↔ result = .error error := by
  cases result <;> simp [Except.map]

theorem not_refused_nil : ¬Refused [] := by
  simp [Refused, stripDelimiters]

theorem refused_blank {line : Line} (h : isBlankText line = true) (rest : List Line) :
    Refused (line :: rest) ↔ Refused rest := by
  have hline : trimStart line = [] := by
    rw [trimStart, ← List.append_nil line, List.dropWhile_append_of_pos (by simpa [isBlankText] using h)]
    rfl
  have hmarker : "///".toList.isPrefixOf? (trimStart line) = none := by rw [hline]; rfl
  have hstart : "/**".toList.isPrefixOf? (trimStart line) = none := by rw [hline]; rfl
  simp only [Refused, stripDelimiters, hmarker, hstart, h, if_true]

theorem refused_marked {line text : Line} (h : trimStart line = '/' :: '/' :: '/' :: text) (rest : List Line) :
    Refused (line :: rest) ↔ text.head? = some '/' ∨ Refused rest := by
  have hmarker : "///".toList.isPrefixOf? (trimStart line) = some text :=
    List.isPrefixOf?_eq_some_iff_append_eq.mpr h.symm
  rw [Refused, stripDelimiters, hmarker]
  by_cases htext : text.head? = some '/'
  · simp [htext]
  · simp [htext, map_eq_error_iff, Refused]

theorem stripDelimiters_some_eq_error_iff {block lines : List Line}
    (h : HasEnd lines) :
    stripDelimiters (some block) lines = .error .notDocumentation ↔ Refused (belowEnd lines) := by
  induction lines generalizing block with
  | nil => exact absurd h not_hasEnd_nil
  | cons line rest ih =>
    rw [stripDelimiters]
    split
    next before after hcut =>
      rw [belowEnd_cons_of_end (by simp [hasPart, hcut]), map_eq_error_iff, Refused]
    next hcut =>
      have hline : hasPart ['*', '/'] line = false := by simp [hasPart, hcut]
      rw [belowEnd_cons hline]
      exact ih (h.of_cons hline)

theorem refused_block {line text : Line} {rest : List Line} (h : trimStart line = '/' :: '*' :: '*' :: text)
    (hend : HasEnd (text :: rest)) :
    Refused (line :: rest) ↔ Refused (belowEnd (text :: rest)) := by
  have hmarker : "///".toList.isPrefixOf? (trimStart line) = none := by rw [h]; rfl
  have hstart : "/**".toList.isPrefixOf? (trimStart line) = some text :=
    List.isPrefixOf?_eq_some_iff_append_eq.mpr h.symm
  simp only [Refused, stripDelimiters, hmarker, hstart]
  split
  next before after hcut => rw [belowEnd_cons_of_end (by simp [hasPart, hcut]), map_eq_error_iff]
  next hcut =>
    have htext : hasPart ['*', '/'] text = false := by simp [hasPart, hcut]
    rw [belowEnd_cons htext]
    exact stripDelimiters_some_eq_error_iff (hend.of_cons htext)

theorem refused_block_append {line text : Line} {rest : List Line} (h : trimStart line = '/' :: '*' :: '*' :: text)
    (hend : HasEnd (text :: rest)) (more : List Line) :
    Refused (line :: (rest ++ more)) ↔ Refused (belowEnd (text :: rest) ++ more) := by
  have hmore : HasEnd (text :: (rest ++ more)) := hend.append more
  rw [refused_block h hmore, ← List.cons_append, belowEnd_append hend]

/-- What the reader makes of a line outside of any block. -/
theorem line_cases (line : Line) :
    isBlankText line = true ∨ (∃ text, trimStart line = '/' :: '/' :: '/' :: text) ∨
      (∃ text, trimStart line = '/' :: '*' :: '*' :: text) ∨ ∀ rest, Refused (line :: rest) := by
  cases hmarker : "///".toList.isPrefixOf? (trimStart line) with
  | some text => exact .inr (.inl ⟨text, (List.isPrefixOf?_eq_some_iff_append_eq.mp hmarker).symm⟩)
  | none =>
    cases hstart : "/**".toList.isPrefixOf? (trimStart line) with
    | some text => exact .inr (.inr (.inl ⟨text, (List.isPrefixOf?_eq_some_iff_append_eq.mp hstart).symm⟩))
    | none =>
      cases hblank : isBlankText line with
      | true => exact .inl rfl
      | false =>
        refine .inr (.inr (.inr fun rest => ?_))
        rw [Refused, stripDelimiters, hmarker, hstart]
        simp [hblank]

/-- Documentation is read to its end, and leaves no block open. -/
theorem Documents.refused_append {lines : List Line} (h : Documents lines) (more : List Line) :
    Refused (lines ++ more) ↔ Refused more := by
  induction h with
  | nil => exact Iff.rfl
  | blank h _ ih => exact (refused_blank h _).trans ih
  | marked h htext _ ih => exact (refused_marked h _).trans (by simpa [htext] using ih)
  | block h hend _ ih => exact (refused_block_append h hend more).trans ih

/-- Lines that leave no block open are documentation, or they are refused whatever follows. -/
theorem Settled.documents_or_refused : ∀ {lines : List Line}, Settled lines →
    Documents lines ∨ ∀ more, Refused (lines ++ more)
  | [], _ => .inl .nil
  | line :: rest, h => by
    rcases line_cases line with hblank | ⟨text, htext⟩ | ⟨text, htext⟩ | hrefused
    · exact (documents_or_refused h.2).imp (.blank hblank) fun hrest more => (refused_blank hblank _).mpr (hrest more)
    · by_cases hslash : text.head? = some '/'
      · exact .inr fun more => (refused_marked htext _).mpr (.inl hslash)
      · exact (documents_or_refused h.2).imp (.marked htext hslash) fun hrest more =>
          (refused_marked htext _).mpr (.inr (hrest more))
    · -- Reading goes on below the end of the block, where fewer lines are left.
      have hend := h.1 text htext
      have hsuffix := belowEnd_cons_suffix text rest
      have hlength := hsuffix.length_le
      exact (documents_or_refused (h.2.of_suffix hsuffix)).imp (.block htext hend) fun hrest more =>
        (refused_block_append htext hend more).mpr (hrest more)
    · exact .inr fun more => hrefused (rest ++ more)
termination_by lines => lines.length

theorem Settled.refused_append_iff {lines : List Line} (h : Settled lines) (more : List Line) :
    Refused (lines ++ more) ↔ ¬Documents lines ∨ Refused more := by
  by_cases hlines : Documents lines
  · simp [hlines, hlines.refused_append more]
  · simp [hlines, h.documents_or_refused.resolve_left hlines more]

/-! ### Comments one below the other -/

theorem refused_lineComment {text : Line} (htext : text.head? ≠ some '/') (more : List Line) :
    Refused (('/' :: '/' :: '/' :: text) :: more) ↔ Refused more := by
  simp [refused_marked (trimStart_cons (by decide) _), htext]

theorem below_lineComment {text : List Char} (h : '\n' ∉ text) : below ('/' :: '/' :: '/' :: text) = [] := by
  have hlines : ∃ line, belowEnd (lines text) <:+ belowEnd [line] := by
    cases text with
    | nil => exact ⟨[], List.suffix_rfl⟩
    | cons c rest => exact ⟨c :: rest, lines_single h (List.cons_ne_nil c rest) ▸ List.suffix_rfl⟩
  obtain ⟨line, hline⟩ := hlines
  exact List.suffix_nil.mp (hline.trans (belowEnd_cons_suffix line []))

theorem refused_blockComment {text : List Char} (h : Comment.closes 1 text = true) (more : List Line) :
    Refused (lines ('/' :: '*' :: '*' :: text) ++ more) ↔
      ¬Documents (below ('/' :: '*' :: '*' :: text)) ∨ Refused more := by
  obtain ⟨first, rest, htext, hlines⟩ :=
    exists_lines_append (by decide : EndsInText ['/', '*', '*']) (by decide) (Comment.ne_nil_of_closes h)
  have hend := htext ▸ hasEnd_lines h
  have hbelow : Settled (belowEnd (first :: rest)) :=
    (htext ▸ settled_lines h : Settled (first :: rest)).2.of_suffix (belowEnd_cons_suffix first rest)
  calc Refused (lines ('/' :: '*' :: '*' :: text) ++ more)
      ↔ Refused (('/' :: '*' :: '*' :: first) :: (rest ++ more)) := by rw [← List.cons_append]; exact hlines ▸ Iff.rfl
    _ ↔ Refused (belowEnd (first :: rest) ++ more) := refused_block_append (trimStart_cons (by decide) _) hend more
    _ ↔ ¬Documents (belowEnd (first :: rest)) ∨ Refused more := hbelow.refused_append_iff more
    _ ↔ ¬Documents (below ('/' :: '*' :: '*' :: text)) ∨ Refused more := by rw [below, ← htext]; rfl

theorem refused_above_iff {comment : List Char} (h : Comment.IsWhole comment)
    (hdoc : Comment.isDocumentation comment = true) (text : List Char) :
    Refused (lines (comment ++ '\n' :: text)) ↔ ¬Documents (below comment) ∨ Refused (lines text) := by
  obtain ⟨body, rfl, hsingle, hslash⟩ | ⟨body, rfl, hcloses⟩ := h.cases_of_isDocumentation hdoc
  · have hslash : (dropReturn body).head? ≠ some '/' := by
      intro hhead
      obtain ⟨more, hmore⟩ := dropReturn_isPrefix body
      obtain ⟨rest, hrest⟩ := List.head?_eq_some_iff.mp hhead
      exact hslash (by rw [← hmore, hrest]; rfl)
    have hmarker : dropReturn ('/' :: '/' :: '/' :: body) = '/' :: '/' :: '/' :: dropReturn body :=
      dropReturn_append (by decide : dropReturn ['/', '/', '/'] = ['/', '/', '/']) body
    rw [lines_append_cons (by simpa using hsingle), hmarker, refused_lineComment hslash, below_lineComment hsingle]
    simp [Documents.nil]
  · have hends : EndsInText ('/' :: '*' :: '*' :: body) :=
      (Comment.endsInText_of_closes hcloses).append (Comment.ne_nil_of_closes hcloses) ['/', '*', '*']
    rw [lines_append_newline (List.cons_ne_nil _ _) hends, refused_blockComment hcloses]

theorem refused_iff {comment : List Char} (h : Comment.IsWhole comment)
    (hdoc : Comment.isDocumentation comment = true) : Refused (lines comment) ↔ ¬Documents (below comment) := by
  obtain ⟨body, rfl, hsingle, hslash⟩ | ⟨body, rfl, hcloses⟩ := h.cases_of_isDocumentation hdoc
  · rw [lines_single (by simpa using hsingle) (List.cons_ne_nil _ _), refused_lineComment hslash,
      below_lineComment hsingle]
    simp [Documents.nil, not_refused_nil]
  · have hlast := refused_blockComment hcloses []
    rwa [List.append_nil, or_iff_left not_refused_nil] at hlast

theorem refused_joined_iff : ∀ {comments : List (List Char)}, comments ≠ [] →
    (∀ comment ∈ comments, Comment.IsWhole comment ∧ Comment.isDocumentation comment = true) →
    (Refused (lines (['\n'].intercalate comments)) ↔ ∃ comment ∈ comments, ¬Documents (below comment))
  | [], hsome, _ => absurd rfl hsome
  | [comment], _, h => by
    obtain ⟨hwhole, hdoc⟩ := h comment List.mem_cons_self
    simpa using refused_iff hwhole hdoc
  | comment :: next :: rest, _, h => by
    obtain ⟨⟨hwhole, hdoc⟩, hrest⟩ := List.forall_mem_cons.mp h
    rw [List.intercalate_cons_cons, List.append_assoc, List.singleton_append, refused_above_iff hwhole hdoc,
      refused_joined_iff (List.cons_ne_nil next rest) hrest]
    simp

theorem read_eq_notDocumentation {comment : List Char} :
    read (String.ofList comment) = .error .notDocumentation ↔ Refused (lines comment) := by
  rw [read, String.toList_ofList, body, Refused]
  cases hlines : stripDelimiters none (lines comment) with
  | error error => simp [Except.map]
  | ok lines =>
    simp only [Except.map]
    split <;> simp

/-- Nothing stands below the first `*/` of a block with no other inside. -/
theorem belowEnd_lines_of_single {text : List Char} (hsingle : ¬['/', '*'] <:+: text)
    (h : Comment.closes 1 text = true) : belowEnd (lines text) = [] := by
  induction text using lineInduction with
  | single line hline =>
    rw [lines_single hline (Comment.ne_nil_of_closes h)]
    exact List.suffix_nil.mp (belowEnd_cons_suffix line [])
  | above line rest hline ih =>
    obtain ⟨hopen, hrest⟩ := Comment.closes_below_of_single hsingle h
    have hopen : hasPart ['*', '/'] (dropReturn line) = false := by
      rw [← Bool.not_eq_true, hasPart_iff_isInfix]
      exact fun hpart => hopen (hpart.trans (dropReturn_isPrefix line).isInfix)
    have hbelow : '\n' :: rest <:+ line ++ '\n' :: rest := List.suffix_append line _
    rw [lines_append_cons hline, belowEnd_cons hopen]
    exact ih (fun hpart => hsingle (hpart.trans ((List.suffix_cons '\n' rest).trans hbelow).isInfix)) hrest

theorem below_of_single {comment : List Char} (h : Comment.IsWhole comment)
    (hdoc : Comment.isDocumentation comment = true)
    (hsingle : ∀ text, comment = '/' :: '*' :: text → hasPart ['/', '*'] text = false) : below comment = [] := by
  obtain ⟨body, rfl, hline, -⟩ | ⟨body, rfl, hcloses⟩ := h.cases_of_isDocumentation hdoc
  · exact below_lineComment hline
  · refine belowEnd_lines_of_single (fun hpart => ?_) hcloses
    have hinner := hasPart_iff_isInfix.mpr (hpart.trans (List.suffix_cons '*' body).isInfix)
    rw [hsingle _ rfl] at hinner
    cases hinner

/-- Comments that count as documentation are refused exactly when a block among them has lines below its first
`*/` that are no documentation by themselves. Without blocks inside of blocks they are never refused. -/
theorem read_eq_notDocumentation_iff (comments : List (List Char)) (hsome : comments ≠ [])
    (h : ∀ comment ∈ comments, Comment.IsWhole comment ∧ Comment.isDocumentation comment = true) :
    let text := String.ofList (['\n'].intercalate comments)
    (read text = .error .notDocumentation ↔ ∃ comment ∈ comments, ¬Documents (below comment)) ∧
      ((∀ comment ∈ comments, ∀ text, comment = '/' :: '*' :: text → hasPart ['/', '*'] text = false) →
        read text ≠ .error .notDocumentation) := by
  intro text
  have hiff := read_eq_notDocumentation.trans (refused_joined_iff hsome h)
  refine ⟨hiff, fun hsingle hread => ?_⟩
  obtain ⟨comment, hmem, hbelow⟩ := hiff.mp hread
  obtain ⟨hwhole, hdoc⟩ := h comment hmem
  exact hbelow (below_of_single hwhole hdoc (hsingle comment hmem) ▸ .nil)

/-- A block inside another does no harm where the line below it is documentation by itself, and does where the
line is plain text. -/
theorem read_nested_joined :
    let good := ["/// a".toList, "/** b /* c */ d */".toList, "/** e /* f */\n /** g */ */".toList]
    let bad := "/** a /* b */\nc */".toList
    (∀ comment ∈ good ++ [bad], Comment.IsWhole comment ∧ Comment.isDocumentation comment = true) ∧
      read (String.ofList (['\n'].intercalate good)) ≠ .error .notDocumentation ∧
      read (String.ofList (['\n'].intercalate (good ++ [bad]))) = .error .notDocumentation := by
  intro good bad
  have h : ∀ comment ∈ good ++ [bad], Comment.IsWhole comment ∧ Comment.isDocumentation comment = true := by
    simp only [good, bad, List.cons_append, List.nil_append, List.forall_mem_cons]
    exact ⟨⟨.line (by decide), by decide⟩, ⟨.block (by decide), by decide⟩, ⟨.block (by decide), by decide⟩,
      ⟨.block (by decide), by decide⟩, by simp⟩
  have hgood : ∀ comment ∈ good, Documents (below comment) := by
    have hline : trimStart " /** g */ */".toList = '/' :: '*' :: '*' :: " g */ */".toList := by decide
    simp only [good, List.forall_mem_cons]
    exact ⟨.nil, .nil, .block hline ⟨_, List.mem_cons_self, by decide⟩ .nil, by simp⟩
  have hbad : ¬Documents (below bad) := by
    intro hdoc
    cases hdoc with
    | blank h => cases h
    | marked h => cases h
    | block h => cases h
  refine ⟨h, fun hread => ?_, ?_⟩
  · have hleft := fun comment hmem => h comment (List.mem_append_left [bad] hmem)
    obtain ⟨comment, hmem, hbelow⟩ := (read_eq_notDocumentation_iff good (by simp [good]) hleft).1.mp hread
    exact hbelow (hgood comment hmem)
  · exact (read_eq_notDocumentation_iff (good ++ [bad]) (by simp) h).1.mpr ⟨bad, by simp, hbad⟩

/-- A block inside another with a line of text below it is refused, though it is whole and counts as documentation. -/
theorem read_nested_above_text :
    let comment := "/** a /* b */\nc */".toList
    Comment.IsWhole comment ∧ Comment.isDocumentation comment = true ∧
      read (String.ofList comment) = .error .notDocumentation :=
  ⟨.block (by decide), by decide, read_eq_notDocumentation.mpr rfl⟩

end Markup

end DocIndex
