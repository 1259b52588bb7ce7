import DocIndex.Proofs.Markup.Parameters
import DocIndex.Proofs.Text.Boundary

/-! # Lines without their common indent

Indent is made of spaces and tabs only, each of them one byte, so the common indent can be taken off in bytes as well
as in characters (`isBoundary_of_le_indentWidth`). The least indent is attained (`exists_commonIndent`): after it is
gone some line starts at the margin, and there is nothing more to take off (`dedent_dedent`). -/

namespace DocIndex.Markup

open Text

/-- Spaces and tabs of the given number. -/
structure IsIndentOf (width : Nat) (indent : Line) : Prop where
  length : indent.length = width
  indent : ∀ c ∈ indent, isIndent c = true

namespace IsIndentOf

variable {width : Nat} {indent : Line} (h : IsIndentOf width indent)
include h

theorem isBlank : ∀ c ∈ indent, isBlank c = true := fun c hc =>
  isBlank_of_isIndent (h.indent c hc)

theorem byteLength : byteLength indent = width := by
  rw [← h.length]
  have hindent := h.indent
  clear h
  induction indent with
  | nil => rfl
  | cons c rest ih =>
    obtain ⟨hc, hrest⟩ := List.forall_mem_cons.mp hindent
    have hsize : c.utf8Size = 1 := by
      rw [isIndent, Bool.or_eq_true, beq_iff_eq, beq_iff_eq] at hc
      rcases hc with rfl | rfl <;> rfl
    rw [Text.byteLength, ih hrest, hsize, List.length_cons, Nat.add_comm]

theorem isBlankText_append (line : Line) : isBlankText (indent ++ line) = isBlankText line := by
  rw [isBlankText, List.all_append, List.all_eq_true.mpr h.isBlank, Bool.true_and, isBlankText]

theorem indentWidth_append (line : Line) : indentWidth (indent ++ line) = width + indentWidth line := by
  rw [indentWidth, List.takeWhile_append_of_pos h.indent, List.length_append, h.length, indentWidth]

theorem drop_append (line : Line) (more : Nat) : (indent ++ line).drop (width + more) = line.drop more := by
  rw [← h.length, List.drop_length_add_append]

/-- A line behind more indent is the same once the indent is taken off with the rest. -/
theorem dedentLine_append (more : Nat) (line : Line) :
    dedentLine (width + more) (indent ++ line) = dedentLine more line := by
  rw [dedentLine, h.isBlankText_append, h.drop_append, dedentLine]

theorem dedentLine_append_of_text {line : Line} (htext : isBlankText line = false) :
    dedentLine width (indent ++ line) = trimEnd line := by
  rw [← Nat.add_zero width, h.dedentLine_append, dedentLine, htext]
  rfl

end IsIndentOf

/-! ### One line -/

section

variable {line : Line} {width : Nat}

theorem exists_indent (h : width ≤ indentWidth line) :
    ∃ indent rest, IsIndentOf width indent ∧ line = indent ++ rest := by
  refine ⟨line.take width, line.drop width, ⟨?_, fun c hc => ?_⟩, (List.take_append_drop width line).symm⟩
  · have hle : (line.takeWhile isIndent).length ≤ line.length := (List.takeWhile_prefix _).length_le
    exact List.length_take_of_le (Nat.le_trans h hle)
  · rw [← List.takeWhile_append_dropWhile (p := isIndent) (l := line), List.take_append_of_le_length h] at hc
    exact List.all_eq_true.mp List.all_takeWhile c (List.mem_of_mem_take hc)

/-- The width of the indent is the number of bytes before the first character that is no indent. -/
theorem indentWidth_eq_bytes (line : Line) :
    indentWidth line = byteLength line - byteLength (line.dropWhile isIndent) := by
  have hindent : IsIndentOf (indentWidth line) (line.takeWhile isIndent) :=
    ⟨rfl, List.all_eq_true.mp List.all_takeWhile⟩
  have hbytes := byteLength_append (line.takeWhile isIndent) (line.dropWhile isIndent)
  rw [List.takeWhile_append_dropWhile, hindent.byteLength] at hbytes
  omega

/-- A place in the indent of a line lies between two characters, and as many bytes as characters stand before it. -/
theorem isBoundary_of_le_indentWidth (h : width ≤ indentWidth line) :
    IsBoundary line width ∧ dropBytes width line = line.drop width := by
  obtain ⟨indent, rest, hindent, rfl⟩ := exists_indent h
  refine ⟨⟨indent, rest, rfl, hindent.byteLength⟩, ?_⟩
  have hbytes := dropBytes_append indent rest
  have hdrop := hindent.drop_append rest 0
  rw [hindent.byteLength] at hbytes
  rw [hbytes, ← Nat.add_zero width, hdrop, List.drop_zero]

theorem endsInText_dedentLine (width : Nat) (line : Line) : EndsInText (dedentLine width line) := by
  rw [dedentLine]
  split
  · intro c hc
    cases hc
  · exact endsInText_trimEnd _

/-- Nothing is left of the blank lines, and something of all others. -/
theorem dedentLine_eq_nil_iff (h : isBlankText line = false → width ≤ indentWidth line) :
    dedentLine width line = [] ↔ isBlankText line = true := by
  cases htext : isBlankText line with
  | true => simp [dedentLine, htext]
  | false =>
    obtain ⟨indent, rest, hindent, rfl⟩ := exists_indent (h htext)
    rw [hindent.isBlankText_append] at htext
    have hrest : isBlankText (trimEnd rest) = false := (isBlankText_trimEnd rest).trans htext
    rw [hindent.dedentLine_append_of_text htext]
    refine ⟨fun hnil => ?_, fun hfalse => absurd hfalse Bool.false_ne_true⟩
    rw [hnil] at hrest
    cases hrest

/-- A line without all of its indent has none. -/
theorem indentWidth_dedentLine (htext : isBlankText line = false) (hwidth : indentWidth line = width) :
    indentWidth (dedentLine width line) = 0 := by
  obtain ⟨indent, rest, hindent, rfl⟩ := exists_indent (Nat.le_of_eq hwidth.symm)
  rw [hindent.isBlankText_append] at htext
  rw [hindent.indentWidth_append] at hwidth
  rw [hindent.dedentLine_append_of_text htext, indentWidth_trimEnd htext]
  omega

end

/-! ### The least indent -/

section

variable {lines : List Line}

/-- The common indent is that of some line, and of no line less. -/
theorem commonIndent_eq_iff (h : ∃ line ∈ lines, isBlankText line = false) {width : Nat} :
    commonIndent lines = width ↔
      (∃ line ∈ lines, isBlankText line = false ∧ indentWidth line = width) ∧
        ∀ line ∈ lines, isBlankText line = false → width ≤ indentWidth line := by
  have hne : (lines.filter (!isBlankText ·)).map indentWidth ≠ [] := by
    obtain ⟨line, hline, htext⟩ := h
    exact List.ne_nil_of_mem (List.mem_map_of_mem (List.mem_filter.mpr ⟨hline, by simp [htext]⟩))
  rw [commonIndent, least_eq_iff hne]
  simp only [List.mem_map, List.mem_filter, Bool.not_eq_true', and_assoc]
  refine and_congr_right fun _ => ⟨fun hle line hline htext => ?_, ?_⟩
  · exact hle _ ⟨line, hline, htext, rfl⟩
  · rintro hle _ ⟨line, hline, htext, rfl⟩
    exact hle line hline htext

theorem exists_commonIndent (h : ∃ line ∈ lines, isBlankText line = false) :
    ∃ line ∈ lines, isBlankText line = false ∧ indentWidth line = commonIndent lines :=
  ((commonIndent_eq_iff h).mp rfl).1

theorem commonIndent_le {line : Line} (hline : line ∈ lines) (htext : isBlankText line = false) :
    commonIndent lines ≤ indentWidth line :=
  ((commonIndent_eq_iff ⟨line, hline, htext⟩).mp rfl).2 line hline htext

/-! ### Empty lines at the ends -/

/-- Only empty lines are dropped, and no empty line is left at the ends. -/
theorem exists_dropEmptyEnds (lines : List Line) :
    ∃ above below, lines = above ++ (dropEmptyEnds lines ++ below) ∧ (∀ line ∈ above, line = []) ∧
      (∀ line ∈ below, line = []) := by
  have hempty : ∀ rows : List Line, ∀ line ∈ rows.takeWhile (·.isEmpty), line = [] := fun rows line hline =>
    List.isEmpty_iff.mp (List.all_eq_true.mp List.all_takeWhile line hline)
  refine ⟨lines.takeWhile (·.isEmpty), ((lines.dropWhile (·.isEmpty)).reverse.takeWhile (·.isEmpty)).reverse, ?_,
    hempty lines, fun line hline => hempty _ line (List.mem_reverse.mp hline)⟩
  rw [dropEmptyEnds, ← List.reverse_append, List.takeWhile_append_dropWhile, List.reverse_reverse,
    List.takeWhile_append_dropWhile]

theorem getLast?_dropEmptyEnds (lines : List Line) : ∀ line ∈ (dropEmptyEnds lines).getLast?, line ≠ [] := by
  intro line hline
  have hlast := List.head?_dropWhile_not (·.isEmpty) (lines.dropWhile (·.isEmpty)).reverse
  rw [dropEmptyEnds, List.getLast?_reverse] at hline
  rw [hline] at hlast
  exact List.isEmpty_eq_false_iff.mp hlast

theorem head?_dropEmptyEnds (lines : List Line) : ∀ line ∈ (dropEmptyEnds lines).head?, line ≠ [] := by
  intro line hline
  have hfirst := List.head?_dropWhile_not (·.isEmpty) lines
  have hstart : dropEmptyEnds lines <+: lines.dropWhile (·.isEmpty) := by
    have hsuffix := List.dropWhile_suffix (·.isEmpty) (l := (lines.dropWhile (·.isEmpty)).reverse)
    rw [← List.reverse_prefix, List.reverse_reverse] at hsuffix
    exact hsuffix
  obtain ⟨below, hbelow⟩ := hstart
  rw [← hbelow, List.head?_append, hline] at hfirst
  exact List.isEmpty_eq_false_iff.mp hfirst

/-! ### All lines -/

/-- Of the lines from the first to the last that is not blank each gives one line. -/
theorem exists_dedent (lines : List Line) :
    ∃ above kept below, lines = above ++ (kept ++ below) ∧ (∀ line ∈ above ++ below, isBlankText line = true) ∧
      dedent lines = kept.map (dedentLine (commonIndent lines)) := by
  obtain ⟨first, last, hmap, hfirst, hlast⟩ := exists_dropEmptyEnds (lines.map (dedentLine (commonIndent lines)))
  obtain ⟨above, rest, hlines, rfl, hrest⟩ := List.map_eq_append_iff.mp hmap
  obtain ⟨kept, below, rfl, hkept, rfl⟩ := List.map_eq_append_iff.mp hrest
  have hblank : ∀ line ∈ lines, dedentLine (commonIndent lines) line = [] → isBlankText line = true :=
    fun line hline => (dedentLine_eq_nil_iff (commonIndent_le hline)).mp
  refine ⟨above, kept, below, hlines, fun line hline => hblank line ?_ ?_, hkept.symm⟩
  · rw [hlines]
    rcases List.mem_append.mp hline with hline | hline <;> simp [hline]
  · rcases List.mem_append.mp hline with hline | hline
    · exact hfirst _ (List.mem_map_of_mem hline)
    · exact hlast _ (List.mem_map_of_mem hline)

theorem endsInText_of_mem_dedent {line : Line} (h : line ∈ dedent lines) : EndsInText line := by
  obtain ⟨above, kept, below, -, -, hdedent⟩ := exists_dedent lines
  rw [hdedent] at h
  obtain ⟨source, -, rfl⟩ := List.mem_map.mp h
  exact endsInText_dedentLine _ source

theorem eq_nil_of_mem_dedent {line : Line} (h : line ∈ dedent lines) (hblank : isBlankText line = true) : line = [] := by
  by_cases hne : line = []
  · exact hne
  · rw [(endsInText_of_mem_dedent h).isBlankText hne] at hblank
    cases hblank

/-- Where a line is left, one of them starts at the margin. -/
theorem exists_mem_dedent (h : dedent lines ≠ []) : ∃ line ∈ dedent lines, line ≠ [] ∧ indentWidth line = 0 := by
  obtain ⟨above, kept, below, hlines, hblank, hdedent⟩ := exists_dedent lines
  have htext : ∃ line ∈ lines, isBlankText line = false := by
    obtain ⟨first, rest, hfirst⟩ := List.exists_cons_of_ne_nil h
    have hne : first ≠ [] := head?_dropEmptyEnds _ first (congrArg List.head? hfirst)
    obtain ⟨source, hsource, hline⟩ := List.mem_map.mp (hdedent ▸ hfirst ▸ List.mem_cons_self : first ∈ kept.map _)
    refine ⟨source, hlines ▸ by simp [hsource], Bool.eq_false_iff.mpr fun htrue => hne ?_⟩
    rw [← hline, dedentLine, if_pos htrue]
  obtain ⟨line, hline, htext, hwidth⟩ := exists_commonIndent htext
  have hkept : line ∈ kept := by
    have hinside : line ∉ above ++ below := fun hmem => by
      rw [hblank line hmem] at htext
      cases htext
    rw [hlines, List.mem_append, List.mem_append] at hline
    rcases hline with hline | hline | hline
    · exact absurd (List.mem_append_left _ hline) hinside
    · exact hline
    · exact absurd (List.mem_append_right _ hline) hinside
  refine ⟨dedentLine (commonIndent lines) line, hdedent ▸ List.mem_map_of_mem hkept, fun hnil => ?_,
    indentWidth_dedentLine htext hwidth⟩
  rw [(dedentLine_eq_nil_iff fun _ => Nat.le_of_eq hwidth.symm).mp hnil] at htext
  cases htext

theorem dropEmptyEnds_of_ends (hfirst : ∀ line ∈ lines.head?, line ≠ []) (hlast : ∀ line ∈ lines.getLast?, line ≠ []) :
    dropEmptyEnds lines = lines := by
  have hkeep : ∀ rows : List Line, (∀ line ∈ rows.head?, line ≠ []) → rows.dropWhile (·.isEmpty) = rows := by
    intro rows hrows
    cases rows with
    | nil => rfl
    | cons first rest => simp [hrows first rfl]
  rw [dropEmptyEnds, hkeep lines hfirst, hkeep lines.reverse (by rwa [List.head?_reverse]), List.reverse_reverse]

theorem dedent_dedent (lines : List Line) : dedent (dedent lines) = dedent lines := by
  by_cases h : dedent lines = []
  · rw [h]
    rfl
  · obtain ⟨line, hline, hne, hwidth⟩ := exists_mem_dedent h
    have htext := (endsInText_of_mem_dedent hline).isBlankText hne
    have hends : (dedent lines).map trimEnd = dedent lines :=
      (List.map_congr_left fun line hline => (endsInText_of_mem_dedent hline).trimEnd).trans (List.map_id _)
    rw [dedent_of_indentWidth_eq_zero ⟨line, hline, htext, hwidth⟩, hends]
    exact dropEmptyEnds_of_ends (head?_dropEmptyEnds _) (getLast?_dropEmptyEnds _)

/-! ### More indent -/

/-- The lines with an indent before each of them that is not blank. -/
def indented (indent : Nat → Line) (lines : List Line) : List Line :=
  lines.mapIdx fun i line => if isBlankText line then line else indent i ++ line

variable {width : Nat} {indent : Nat → Line}

theorem commonIndent_indented (hindent : ∀ i, IsIndentOf width (indent i))
    (h : ∃ line ∈ lines, isBlankText line = false) :
    commonIndent (indented indent lines) = width + commonIndent lines := by
  have hrow : ∀ i, ∀ line, isBlankText line = false →
      isBlankText (indent i ++ line) = false ∧ indentWidth (indent i ++ line) = width + indentWidth line :=
    fun i line htext => ⟨(hindent i).isBlankText_append line ▸ htext, (hindent i).indentWidth_append line⟩
  obtain ⟨line, hline, htext, hwidth⟩ := exists_commonIndent h
  obtain ⟨i, hi, rfl⟩ := List.mem_iff_getElem.mp hline
  have hmem : indent i ++ lines[i] ∈ indented indent lines := List.mem_mapIdx.mpr ⟨i, hi, by simp [htext]⟩
  obtain ⟨htext', hwidth'⟩ := hrow i _ htext
  refine (commonIndent_eq_iff ⟨_, hmem, htext'⟩).mpr ⟨⟨_, hmem, htext', hwidth ▸ hwidth'⟩, ?_⟩
  intro row hmem htext
  obtain ⟨j, hj, rfl⟩ := List.mem_mapIdx.mp hmem
  cases hsource : isBlankText lines[j] with
  | true =>
    rw [if_pos hsource, hsource] at htext
    cases htext
  | false =>
    rw [if_neg Bool.false_ne_true, (hrow j _ hsource).2]
    exact Nat.add_le_add_left (commonIndent_le (List.getElem_mem hj) hsource) width

theorem dedent_indented (hindent : ∀ i, IsIndentOf width (indent i)) (lines : List Line) :
    dedent (indented indent lines) = dedent lines := by
  by_cases h : ∃ line ∈ lines, isBlankText line = false
  · have hmap : (indented indent lines).map (dedentLine (width + commonIndent lines)) =
        lines.map (dedentLine (commonIndent lines)) := by
      refine List.ext_getElem (by simp [indented]) fun i hi hi' => ?_
      rw [List.getElem_map, List.getElem_map]
      simp only [indented, List.getElem_mapIdx]
      split
      next hblank => rw [dedentLine, if_pos hblank, dedentLine, if_pos hblank]
      next => exact (hindent i).dedentLine_append _ _
    rw [dedent, commonIndent_indented hindent h, hmap, dedent]
  · have hsame : indented indent lines = lines := by
      refine List.ext_getElem (by simp [indented]) fun i hi hi' => ?_
      simp only [indented, List.getElem_mapIdx]
      exact if_pos (Bool.of_not_eq_false fun htext => h ⟨_, List.getElem_mem hi', htext⟩)
    rw [hsame]

/-- The common indent of the lines is a place between two characters in each line that is cut there, as it is counted
in bytes. The lines that are left are those from the first to the last that is not blank, without the common indent:
none ends in a blank, the blank ones are empty, and one of them starts at the margin. Taking off the common indent once
more changes nothing, and neither does more indent of one width before all lines that are not blank. -/
theorem dedent_tidy (lines : List Line) :
    (∀ line ∈ lines, isBlankText line = false →
      indentWidth line = byteLength line - byteLength (line.dropWhile isIndent) ∧
        commonIndent lines ≤ byteLength line ∧ IsBoundary line (commonIndent lines) ∧
        dedentLine (commonIndent lines) line = trimEnd (dropBytes (commonIndent lines) line)) ∧
      (∃ above kept below, lines = above ++ (kept ++ below) ∧ (∀ line ∈ above ++ below, isBlankText line = true) ∧
        dedent lines = kept.map (dedentLine (commonIndent lines))) ∧
      (∀ line ∈ (dedent lines).head?, line ≠ []) ∧ (∀ line ∈ (dedent lines).getLast?, line ≠ []) ∧
      (∀ line ∈ dedent lines, EndsInText line ∧ (isBlankText line = true → line = [])) ∧
      (dedent lines ≠ [] → ∃ line ∈ dedent lines, line ≠ [] ∧ indentWidth line = 0) ∧
      dedent (dedent lines) = dedent lines ∧
      ∀ (width : Nat) (indent : Nat → Line), (∀ i, IsIndentOf width (indent i)) →
        dedent (indented indent lines) = dedent lines := by
  refine ⟨fun line hline htext => ?_, exists_dedent lines, head?_dropEmptyEnds _, getLast?_dropEmptyEnds _,
    fun line hline => ⟨endsInText_of_mem_dedent hline, eq_nil_of_mem_dedent hline⟩, exists_mem_dedent,
    dedent_dedent lines, fun width indent hindent => dedent_indented hindent lines⟩
  have hle := commonIndent_le hline htext
  have hwidth := indentWidth_eq_bytes line
  obtain ⟨hboundary, hdrop⟩ := isBoundary_of_le_indentWidth hle
  refine ⟨hwidth, by omega, hboundary, ?_⟩
  rw [hdrop, dedentLine, if_neg (by simp [htext])]

/-- Lines behind tabs and spaces, with wide blanks at their starts and ends, before and behind more indent. -/
theorem dedent_tidy_wide :
    let lines := ["\t".toList, "\t Sum.\u3000".toList, " \u2003".toList, "  \u00a0 of".toList]
    let indent : Nat → Line := fun i => if i = 1 then "\t ".toList else " \t".toList
    IsBoundary "  \u00a0 of".toList (commonIndent lines) ∧
      dedent lines = ["Sum.".toList, [], "\u00a0 of".toList] ∧
      (∃ line ∈ dedent lines, line ≠ [] ∧ indentWidth line = 0) ∧
      (∀ i, IsIndentOf 2 (indent i)) ∧
      dedent (indented indent lines) = ["Sum.".toList, [], "\u00a0 of".toList] := by
  intro lines indent
  have hdedent : dedent lines = ["Sum.".toList, [], "\u00a0 of".toList] := by decide
  have hindent : ∀ i, IsIndentOf 2 (indent i) := by
    intro i
    by_cases hi : i = 1 <;> simp only [indent, hi, if_true, if_false] <;> exact ⟨rfl, by simp [isIndent]⟩
  obtain ⟨hcut, -, -, -, -, hmargin, -, hmore⟩ := dedent_tidy lines
  obtain ⟨-, -, hboundary, -⟩ := hcut "  \u00a0 of".toList (by simp [lines]) (by decide)
  refine ⟨hboundary, hdedent, hmargin ?_, hindent, (hmore 2 indent hindent).trans hdedent⟩
  rw [hdedent]
  exact List.cons_ne_nil _ _

end

end DocIndex.Markup
