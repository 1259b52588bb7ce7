import DocIndex.Markup.Body
import DocIndex.Proofs.Text.Trimmed

/-! # Line comments

A body can be written as a line comment: the marker before each line, and a space after it. Reading gives
the body back (`body_lineComment`), if its lines end in text and the first of them has no indent. -/

namespace DocIndex.Markup

open Text

/-- A line as it stands in a body: a single one that does not end in a blank. -/
structure IsBodyLine (line : Line) : Prop where
  single : '\n' ∉ line
  stop : EndsInText line

/-- A line of a body in a line comment. An empty line has any number of spaces after the marker. -/
def commentLine (trail : Nat) (line : Line) : Line :=
  if line.isEmpty then '/' :: '/' :: '/' :: List.replicate trail ' ' else '/' :: '/' :: '/' :: ' ' :: line

/-- A body as a line comment. -/
def lineComment (trail : Nat) (body : List Line) : String :=
  String.ofList (['\n'].intercalate (body.map (commentLine trail)))

/-- What is left of a line in a line comment without its marker. -/
def unmarked (trail : Nat) (line : Line) : Line :=
  if line.isEmpty then List.replicate (trail - 1) ' ' else line

/-! ### Markers -/

theorem newline_not_mem_commentLine {trail : Nat} {line : Line} (h : '\n' ∉ line) :
    '\n' ∉ commentLine trail line := by
  unfold commentLine
  split <;> simp [h]

theorem commentLine_ne_nil (trail : Nat) (line : Line) : commentLine trail line ≠ [] := by
  unfold commentLine
  split <;> exact List.cons_ne_nil _ _

theorem getLast?_commentLine_ne_return {trail : Nat} {line : Line} (h : EndsInText line) :
    (commentLine trail line).getLast? ≠ some '\r' := by
  unfold commentLine
  split
  next =>
    intro hlast
    have hmem := List.mem_of_getLast? hlast
    simp at hmem
  next hne =>
    have hne : line ≠ [] := by simpa using hne
    intro hlast
    have hends := h.append hne ['/', '/', '/', ' ']
    exact absurd (hends '\r' hlast) (by decide)

theorem stripDelimiters_marker {line text : Line} (hline : trimStart line = '/' :: '/' :: '/' :: text)
    (h : text.head? ≠ some '/') (rest : List Line) :
    stripDelimiters none (line :: rest) = (stripDelimiters none rest).map (dropStart [' '] text :: ·) := by
  have hmarker : "///".toList.isPrefixOf? (trimStart line) = some text :=
    List.isPrefixOf?_eq_some_iff_append_eq.mpr hline.symm
  rw [stripDelimiters, hmarker]
  simp [h]

/-- Stripping the marker leaves the line, or fewer spaces where there is none. -/
theorem stripDelimiters_commentLine (trail : Nat) (line : Line) (rest : List Line) :
    stripDelimiters none (commentLine trail line :: rest) =
      (stripDelimiters none rest).map (unmarked trail line :: ·) := by
  have hslash : isBlank '/' = false := by decide
  unfold commentLine unmarked
  split
  next =>
    cases trail with
    | zero => exact stripDelimiters_marker (trimStart_cons hslash _) (by simp) rest
    | succ n => exact stripDelimiters_marker (trimStart_cons hslash _) (by simp [List.replicate_succ]) rest
  next => exact stripDelimiters_marker (trimStart_cons hslash _) (by simp) rest

theorem stripDelimiters_map_commentLine (trail : Nat) : ∀ body : List Line,
    stripDelimiters none (body.map (commentLine trail)) = .ok (body.map (unmarked trail))
  | [] => rfl
  | line :: rest => by
    rw [List.map_cons, stripDelimiters_commentLine, stripDelimiters_map_commentLine trail rest]
    rfl

/-! ### Indent -/

theorem least_eq_iff {numbers : List Nat} (hne : numbers ≠ []) {n : Nat} :
    least numbers = n ↔ n ∈ numbers ∧ ∀ m ∈ numbers, n ≤ m := by
  obtain ⟨first, rest, rfl⟩ := List.exists_cons_of_ne_nil hne
  rw [← List.min?_eq_some_iff, List.min?_cons', Option.some.injEq, least]

/-- Where some line has no indent, the lines share none. -/
theorem commonIndent_eq_zero {line : Line} {lines : List Line} (hline : line ∈ lines)
    (htext : isBlankText line = false) (hwidth : indentWidth line = 0) : commonIndent lines = 0 := by
  have hmem : 0 ∈ (lines.filter (!isBlankText ·)).map indentWidth :=
    List.mem_map.mpr ⟨line, List.mem_filter.mpr ⟨hline, by simp [htext]⟩, hwidth⟩
  exact (least_eq_iff (List.ne_nil_of_mem hmem)).mpr ⟨hmem, fun _ _ => Nat.zero_le _⟩

theorem isBlank_of_isIndent {c : Char} (h : isIndent c = true) : isBlank c = true := by
  rw [isIndent, Bool.or_eq_true, beq_iff_eq, beq_iff_eq] at h
  rcases h with rfl | rfl <;> decide

theorem isIndent_of_startsInText {c : Char} {rest : Line} (h : StartsInText (c :: rest)) :
    isIndent c = false := by
  cases hindent : isIndent c with
  | false => rfl
  | true => exact absurd (isBlank_of_isIndent hindent) (by simp [h c rfl])

theorem dropWhile_isIndent_append {indent line : Line} (hindent : ∀ c ∈ indent, isIndent c = true)
    (hline : StartsInText line) : (indent ++ line).dropWhile isIndent = line := by
  rw [List.dropWhile_append_of_pos hindent]
  cases line with
  | nil => rfl
  | cons c rest => rw [List.dropWhile_cons, isIndent_of_startsInText hline]; rfl

theorem indentWidth_append {indent line : Line} (hindent : ∀ c ∈ indent, isIndent c = true)
    (hline : StartsInText line) : indentWidth (indent ++ line) = indent.length := by
  rw [indentWidth, List.takeWhile_append_of_pos hindent]
  cases line with
  | nil => rw [List.takeWhile_nil, List.append_nil]
  | cons c rest => simp [isIndent_of_startsInText hline]

theorem commonIndent_of_first {first : Line} (hne : first ≠ []) (hfirst : StartsInText first)
    (hends : EndsInText first) (rest : List Line) : commonIndent (first :: rest) = 0 := by
  have hwidth : indentWidth first = 0 := indentWidth_append (fun _ hc => absurd hc List.not_mem_nil) hfirst
  exact commonIndent_eq_zero List.mem_cons_self (hends.isBlankText hne) hwidth

theorem dedentLine_unmarked (trail : Nat) {line : Line} (h : EndsInText line) :
    dedentLine 0 (unmarked trail line) = line := by
  cases line with
  | nil => simp [dedentLine, unmarked, isBlankText, isBlank]
  | cons c rest =>
    have hblank := h.isBlankText (List.cons_ne_nil c rest)
    have hend := h.trimEnd
    simp [dedentLine, unmarked, hblank, hend]

/-- A line comment has the body that it was written from, without the empty lines at its ends. -/
theorem body_lineComment (trail : Nat) {first : Line} {rest : List Line}
    (hbody : ∀ line ∈ first :: rest, IsBodyLine line) (hne : first ≠ []) (hfirst : StartsInText first) :
    body (lineComment trail (first :: rest)).toList = .ok (dropEmptyEnds (first :: rest)) := by
  have hlines : lines (lineComment trail (first :: rest)).toList =
      (first :: rest).map (commentLine trail) := by
    rw [lineComment, String.toList_ofList]
    refine lines_intercalate (by simp) ?_ ?_ ?_ <;> intro piece hpiece <;>
      obtain ⟨line, hline, rfl⟩ := List.mem_map.mp hpiece
    · exact newline_not_mem_commentLine (hbody line hline).single
    · exact commentLine_ne_nil trail line
    · exact getLast?_commentLine_ne_return (hbody line hline).stop
  have hunmarked : unmarked trail first = first := by simp [unmarked, hne]
  have hindent : commonIndent ((first :: rest).map (unmarked trail)) = 0 := by
    rw [List.map_cons, hunmarked]
    exact commonIndent_of_first hne hfirst (hbody first List.mem_cons_self).stop _
  have hdedent : ((first :: rest).map (unmarked trail)).map (dedentLine 0) = first :: rest := by
    rw [List.map_map]
    exact (List.map_congr_left fun line hline => dedentLine_unmarked trail (hbody line hline).stop).trans
      (List.map_id _)
  rw [body, hlines, stripDelimiters_map_commentLine]
  show Except.ok (dropEmptyEnds (((first :: rest).map (unmarked trail)).map
    (dedentLine (commonIndent ((first :: rest).map (unmarked trail)))))) = _
  rw [hindent, hdedent]

end DocIndex.Markup
