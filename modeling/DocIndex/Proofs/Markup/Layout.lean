import DocIndex.Markup.Reader
import DocIndex.Proofs.Markup.LineComment

/-! # Layouts of a body

A body can be written behind slashes, in a block with a margin of stars, or in a bare block. Whatever the
blanks before the lines, stripping the delimiters gives the lines back, up to blanks at their ends and empty
lines around them, and these say nothing (`dedent_congr`). So the layout of a comment does not matter
(`read_layouts`). -/

namespace DocIndex.Markup

open Text

/-- Blanks before what is written on a line. -/
structure Margin where
  text : Line
  blank : ∀ c ∈ text, isBlank c = true
  single : '\n' ∉ text

/-- Lines with a mark before each of them, and the margin of the line before the mark. -/
def marked (mark : List Char) (margin : Nat → Margin) (body : List Line) : List Line :=
  body.mapIdx fun i line => (margin i).text ++ (mark ++ line)

/-- A way to write a body as a comment. -/
inductive Layout where
  /-- Each line behind three slashes and a space. -/
  | slashes (margin : Nat → Margin)
  /-- A block, with each line behind a star and a space. -/
  | stars (margin : Nat → Margin)
  /-- A block of the lines as they are. -/
  | bare

namespace Layout

def lines : Layout → List Line → List Line
  | slashes margin, body => marked "/// ".toList margin body
  | stars margin, body => "/**".toList :: marked "* ".toList margin body ++ [" */".toList]
  | bare, body => "/**".toList :: body ++ ["*/".toList]

def write (layout : Layout) (body : List Line) : String :=
  String.ofList (['\n'].intercalate (layout.lines body))

/-- The layout can hold the body: its lines are single ones, none of them ends a block that it stands in, and
a bare block does not look like one with a margin. -/
def Holds (layout : Layout) (body : List Line) : Prop :=
  (∀ line ∈ body, '\n' ∉ line) ∧
    match layout with
    | slashes _ => True
    | stars _ => ∀ line ∈ body, ¬['*', '/'] <:+: line
    | bare =>
      (∀ line ∈ body, ¬['*', '/'] <:+: line) ∧
        ∃ line ∈ body, isBlankText line = false ∧ (trimStart line).head? ≠ some '*'

end Layout

/-! ### What the indent and the empty ends do not depend on -/

theorem indentWidth_append_of_text {line : Line} (h : isBlankText line = false) (pad : Line) :
    indentWidth (line ++ pad) = indentWidth line := by
  induction line with
  | nil => cases h
  | cons c rest ih =>
    cases hc : isIndent c with
    | false => simp [indentWidth, hc]
    | true =>
      have hrest : isBlankText rest = false := by simpa [isBlankText, isBlank_of_isIndent hc] using h
      simpa [indentWidth, hc] using ih hrest

theorem isBlankText_trimEnd (line : Line) : isBlankText (trimEnd line) = isBlankText line := by
  obtain ⟨pad, hpad, hline⟩ := exists_trimEnd_append line
  rw [← isBlankText_append hpad, hline]

theorem indentWidth_trimEnd {line : Line} (h : isBlankText line = false) :
    indentWidth (trimEnd line) = indentWidth line := by
  obtain ⟨pad, -, hline⟩ := exists_trimEnd_append line
  rw [← isBlankText_trimEnd] at h
  rw [← indentWidth_append_of_text h pad, hline]

theorem dedentLine_trimEnd (width : Nat) (line : Line) :
    dedentLine width (trimEnd line) = dedentLine width line := by
  obtain ⟨pad, hpad, hline⟩ := exists_trimEnd_append line
  have hdrop : trimEnd (line.drop width) = trimEnd ((trimEnd line).drop width) := by
    have hrest : ∀ c ∈ pad.drop (width - (trimEnd line).length), isBlank c = true := fun c hc =>
      hpad c (List.mem_of_mem_drop hc)
    conv => lhs; rw [← hline, List.drop_append, trimEnd_append hrest]
  rw [dedentLine, dedentLine, isBlankText_trimEnd, hdrop]

theorem commonIndent_map_trimEnd (lines : List Line) : commonIndent (lines.map trimEnd) = commonIndent lines := by
  have hfilter : (fun line => !isBlankText line) ∘ trimEnd = fun line => !isBlankText line := by
    funext line
    exact congrArg (!·) (isBlankText_trimEnd line)
  rw [commonIndent, List.filter_map, hfilter, List.map_map, commonIndent]
  refine congrArg least (List.map_congr_left fun line hline => ?_)
  exact indentWidth_trimEnd (by simpa using (List.mem_filter.mp hline).2)

theorem dedent_map_trimEnd (lines : List Line) : dedent (lines.map trimEnd) = dedent lines := by
  have hline : dedentLine (commonIndent lines) ∘ trimEnd = dedentLine (commonIndent lines) := by
    funext line
    exact dedentLine_trimEnd _ line
  rw [dedent, commonIndent_map_trimEnd, List.map_map, hline, dedent]

/-- Blanks at the ends of the lines do not matter. -/
theorem dedent_congr {lines others : List Line} (h : lines.map trimEnd = others.map trimEnd) :
    dedent lines = dedent others := by
  rw [← dedent_map_trimEnd, h, dedent_map_trimEnd]

theorem dedent_nil_cons (lines : List Line) : dedent ([] :: lines) = dedent lines :=
  rfl

theorem dropEmptyEnds_concat_nil (lines : List Line) : dropEmptyEnds (lines ++ [[]]) = dropEmptyEnds lines := by
  rw [dropEmptyEnds, List.dropWhile_append]
  split
  next hempty =>
    have hnil : lines.dropWhile (·.isEmpty) = [] := by simpa using hempty
    rw [dropEmptyEnds, hnil]
    rfl
  next => rw [List.reverse_append]; rfl

theorem dedent_concat_nil (lines : List Line) : dedent (lines ++ [[]]) = dedent lines := by
  have hindent : commonIndent (lines ++ [[]]) = commonIndent lines := by
    rw [commonIndent, List.filter_append]
    simp [commonIndent, isBlankText]
  rw [dedent, hindent, List.map_append, dedent]
  exact dropEmptyEnds_concat_nil _

/-! ### Marks -/

theorem marked_cons (mark : List Char) (margin : Nat → Margin) (line : Line) (rest : List Line) :
    marked mark margin (line :: rest) =
      ((margin 0).text ++ (mark ++ line)) :: marked mark (fun i => margin (i + 1)) rest :=
  List.mapIdx_cons

theorem exists_of_mem_marked {mark : List Char} {margin : Nat → Margin} {body : List Line} {row : Line}
    (h : row ∈ marked mark margin body) : ∃ i, ∃ line ∈ body, row = (margin i).text ++ (mark ++ line) := by
  obtain ⟨i, hi, hrow⟩ := List.mem_mapIdx.mp h
  exact ⟨i, _, List.getElem_mem hi, hrow.symm⟩

theorem newline_not_mem_marked {mark : List Char} (hmark : '\n' ∉ mark) (margin : Nat → Margin)
    {body : List Line} (h : ∀ line ∈ body, '\n' ∉ line) : ∀ row ∈ marked mark margin body, '\n' ∉ row := by
  intro row hrow
  obtain ⟨i, line, hline, rfl⟩ := exists_of_mem_marked hrow
  simp [(margin i).single, hmark, h line hline]

theorem dropReturn_marked {mark : List Char} (hmark : mark.getLast? = some ' ') (margin : Margin) (line : Line) :
    dropReturn (margin.text ++ (mark ++ line)) = margin.text ++ (mark ++ dropReturn line) := by
  have hpad : dropReturn (margin.text ++ mark) = margin.text ++ mark := by
    simp [dropReturn, List.getLast?_append, hmark]
  rw [← List.append_assoc, dropReturn_append hpad, List.append_assoc]

theorem map_dropReturn_marked {mark : List Char} (hmark : mark.getLast? = some ' ') (body : List Line) :
    ∀ margin : Nat → Margin,
      (marked mark margin body).map dropReturn = marked mark margin (body.map dropReturn) := by
  induction body with
  | nil => intro margin; rfl
  | cons line rest ih =>
    intro margin
    rw [marked_cons, List.map_cons, dropReturn_marked hmark, ih, List.map_cons, marked_cons]

theorem stripDelimiters_slashes (body : List Line) : ∀ margin : Nat → Margin,
    stripDelimiters none (marked "/// ".toList margin body) = .ok body := by
  induction body with
  | nil => intro margin; rfl
  | cons line rest ih =>
    intro margin
    have hrow : trimStart ((margin 0).text ++ ("/// ".toList ++ line)) = '/' :: '/' :: '/' :: ' ' :: line := by
      rw [trimStart_append (margin 0).blank]
      exact trimStart_cons (by decide) _
    rw [marked_cons, stripDelimiters_marker hrow (by simp), ih]
    rfl

theorem trimStart_star (margin : Margin) (line : Line) :
    trimStart (margin.text ++ ("* ".toList ++ line)) = '*' :: ' ' :: line := by
  rw [trimStart_append margin.blank]
  exact trimStart_cons (by decide) _

/-- Behind a star and a space stands no end of a block, unless the line has one. -/
theorem not_infix_star {line : Line} (h : ¬['*', '/'] <:+: line) (margin : Margin) :
    ¬['*', '/'] <:+: margin.text ++ ("* ".toList ++ line) := by
  have hpad : ∀ pad : Line, (∀ c ∈ pad, isBlank c = true) →
      ¬['*', '/'] <:+: pad ++ ("* ".toList ++ line) := by
    intro pad hblank
    induction pad with
    | nil => simp [List.infix_cons_iff, h]
    | cons c rest ih =>
      obtain ⟨hc, hrest⟩ := List.forall_mem_cons.mp hblank
      have hstar : c ≠ '*' := fun heq => absurd (heq ▸ hc) (by decide)
      rw [List.cons_append, List.infix_cons_iff, List.cons_prefix_cons]
      rintro (⟨heq, -⟩ | hpart)
      · exact hstar heq.symm
      · exact ih hrest hpart
  exact hpad margin.text margin.blank

theorem map_dropMargin_marked (body : List Line) : ∀ margin : Nat → Margin,
    (marked "* ".toList margin body).map dropMargin = body := by
  induction body with
  | nil => intro margin; rfl
  | cons line rest ih =>
    intro margin
    have hrow : dropMargin ((margin 0).text ++ ("* ".toList ++ line)) = line := by
      rw [dropMargin, trimStart_star]
      rfl
    rw [marked_cons, List.map_cons, hrow, ih]

/-! ### Blocks -/

/-- A block with nothing on its first line goes on to its first end. -/
theorem stripDelimiters_block {close pad after : Line} (hclose : cut ['*', '/'] close = some (pad, after))
    {rows : List Line} (h : ∀ row ∈ rows, ¬['*', '/'] <:+: row) :
    stripDelimiters none ("/**".toList :: rows ++ [close]) = .ok (stripMargin ([] :: rows ++ [pad])) := by
  have hrows : ∀ block : List Line,
      stripDelimiters (some block) (rows ++ [close]) = .ok (stripMargin (block ++ (rows ++ [pad]))) := by
    induction rows with
    | nil => intro block; simp [stripDelimiters, hclose, Except.map]
    | cons row rest ih =>
      intro block
      obtain ⟨hrow, hrest⟩ := List.forall_mem_cons.mp h
      have hcut : cut ['*', '/'] row = none := by
        rw [← hasPart_iff_isInfix, Bool.not_eq_true, hasPart] at hrow
        exact Option.isNone_iff_eq_none.mp (Option.isSome_eq_false_iff.mp hrow)
      rw [List.cons_append, stripDelimiters, hcut]
      simpa using ih hrest (block ++ [row])
  exact hrows [[]]

theorem lines_block {close : Line} (hne : close ≠ []) (hclose : '\n' ∉ close) {rows : List Line}
    (h : ∀ row ∈ rows, '\n' ∉ row) :
    Text.lines (['\n'].intercalate ("/**".toList :: rows ++ [close])) =
      "/**".toList :: rows.map dropReturn ++ [close] := by
  rw [lines_intercalate_concat hne hclose (List.forall_mem_cons.mpr ⟨by decide, h⟩)]
  rfl

theorem hasMargin_marked (margin : Nat → Margin) (body : List Line) :
    hasMargin ([] :: marked "* ".toList margin body ++ [[' ']]) = true := by
  rw [hasMargin, List.all_eq_true]
  intro row hrow
  obtain ⟨hmem, htext⟩ := List.mem_filter.mp hrow
  simp only [List.cons_append, List.mem_cons, List.mem_append, List.not_mem_nil, or_false] at hmem
  rcases hmem with rfl | hmem | rfl
  · cases htext
  · obtain ⟨i, line, -, rfl⟩ := exists_of_mem_marked hmem
    rw [trimStart_star]
    rfl
  · cases htext

theorem hasMargin_bare {body : List Line}
    (h : ∃ line ∈ body, isBlankText line = false ∧ (trimStart line).head? ≠ some '*') :
    hasMargin ([] :: body ++ [[]]) = false := by
  obtain ⟨line, hline, htext, hstar⟩ := h
  rw [hasMargin, List.all_eq_false]
  exact ⟨line, by simp [hline, htext], by simpa using hstar⟩

/-! ### Whole comments -/

theorem map_trimEnd_dropReturn (body : List Line) : (body.map dropReturn).map trimEnd = body.map trimEnd := by
  rw [List.map_map]
  refine List.map_congr_left fun line _ => ?_
  obtain ⟨pad, hpad, hline⟩ := exists_dropReturn_append line
  conv => rhs; rw [← hline, trimEnd_append hpad]
  rfl

theorem infix_of_infix_dropReturn {part line : Line} (h : part <:+: dropReturn line) : part <:+: line :=
  h.trans (dropReturn_isPrefix line).isInfix

/-- The body of a block whose margin is gone is the body that it was written from. -/
theorem dedent_block (body : List Line) : dedent ([] :: body.map dropReturn ++ [[]]) = dedent body := by
  rw [dedent_concat_nil, dedent_nil_cons, dedent_congr (map_trimEnd_dropReturn body)]

namespace Layout

variable {body : List Line}

theorem body_slashes (margin : Nat → Margin) (hsingle : ∀ line ∈ body, '\n' ∉ line) :
    Markup.body ((slashes margin).write body).toList = .ok (dedent body) := by
  rw [Markup.body, write, String.toList_ofList, Layout.lines]
  rcases List.eq_nil_or_concat body with rfl | ⟨above, last, rfl⟩
  · rfl
  · rw [List.concat_eq_append] at hsingle ⊢
    have hrows := newline_not_mem_marked (by decide : '\n' ∉ "/// ".toList) margin hsingle
    rw [marked, List.mapIdx_concat] at hrows ⊢
    obtain ⟨habove, hlast⟩ := List.forall_mem_append.mp hrows
    have hne : (margin above.length).text ++ ("/// ".toList ++ last) ≠ [] := by simp
    -- The last line keeps its carriage return, the others lose theirs.
    rw [lines_intercalate_concat hne (hlast _ List.mem_cons_self) habove]
    have hlines : (marked "/// ".toList margin above).map dropReturn ++
        [(margin above.length).text ++ ("/// ".toList ++ last)] =
        marked "/// ".toList margin (above.map dropReturn ++ [last]) := by
      rw [map_dropReturn_marked (by decide), marked, marked, List.mapIdx_concat, List.length_map]
    have hsame : (above.map dropReturn ++ [last]).map trimEnd = (above ++ [last]).map trimEnd := by
      rw [List.map_append, map_trimEnd_dropReturn, List.map_append]
    rw [marked] at hlines
    rw [hlines, stripDelimiters_slashes]
    exact congrArg Except.ok (dedent_congr hsame)

theorem body_stars (margin : Nat → Margin) (hsingle : ∀ line ∈ body, '\n' ∉ line)
    (hopen : ∀ line ∈ body, ¬['*', '/'] <:+: line) :
    Markup.body ((stars margin).write body).toList = .ok (dedent body) := by
  have hrows : ∀ row ∈ marked "* ".toList margin (body.map dropReturn), ¬['*', '/'] <:+: row := by
    intro row hrow
    obtain ⟨i, dropped, hdropped, rfl⟩ := exists_of_mem_marked hrow
    obtain ⟨line, hline, rfl⟩ := List.mem_map.mp hdropped
    exact not_infix_star (fun hpart => hopen line hline (infix_of_infix_dropReturn hpart)) (margin i)
  have hlines := newline_not_mem_marked (by decide : '\n' ∉ "* ".toList) margin hsingle
  have hclose : cut ['*', '/'] " */".toList = some ([' '], []) := by decide
  rw [Markup.body, write, String.toList_ofList, Layout.lines, lines_block (by decide) (by decide) hlines,
    map_dropReturn_marked (by decide), stripDelimiters_block hclose hrows, stripMargin,
    if_pos (hasMargin_marked _ _), List.map_append, List.map_cons, map_dropMargin_marked]
  exact congrArg Except.ok (dedent_block body)

theorem body_bare (hsingle : ∀ line ∈ body, '\n' ∉ line) (hopen : ∀ line ∈ body, ¬['*', '/'] <:+: line)
    (hstar : ∃ line ∈ body, isBlankText line = false ∧ (trimStart line).head? ≠ some '*') :
    Markup.body (bare.write body).toList = .ok (dedent body) := by
  have hrows : ∀ row ∈ body.map dropReturn, ¬['*', '/'] <:+: row := by
    intro row hrow hpart
    obtain ⟨line, hline, rfl⟩ := List.mem_map.mp hrow
    exact hopen line hline (infix_of_infix_dropReturn hpart)
  have hstar' : ∃ row ∈ body.map dropReturn, isBlankText row = false ∧ (trimStart row).head? ≠ some '*' := by
    obtain ⟨line, hline, htext, hhead⟩ := hstar
    obtain ⟨pad, hpad, hdrop⟩ := exists_dropReturn_append line
    rw [← hdrop, isBlankText_append hpad] at htext
    rw [← hdrop, head?_trimStart_append hpad] at hhead
    exact ⟨_, List.mem_map_of_mem hline, htext, hhead⟩
  have hclose : cut ['*', '/'] "*/".toList = some ([], []) := by decide
  rw [Markup.body, write, String.toList_ofList, Layout.lines, lines_block (by decide) (by decide) hsingle,
    stripDelimiters_block hclose hrows, stripMargin, hasMargin_bare hstar']
  exact congrArg Except.ok (dedent_block body)

/-- The body of a comment is the one that it was written from, whatever the layout. -/
theorem body_write {layout : Layout} (h : layout.Holds body) :
    Markup.body (layout.write body).toList = .ok (dedent body) := by
  obtain ⟨hsingle, h⟩ := h
  cases layout with
  | slashes margin => exact body_slashes margin hsingle
  | stars margin => exact body_stars margin hsingle h
  | bare => exact body_bare hsingle h.1 h.2

end Layout

theorem read_of_body {comment : String} {lines : List Line} (h : body comment.toList = .ok lines) :
    read comment = if (readBody lines).isEmpty then .error .empty else .ok (readBody lines) := by
  rw [read, h]

/-- A body is read alike behind slashes and in a block with a margin of stars, whatever the blanks before the
slashes and the stars, and also in a bare block, if some line of it shows that it has no margin. -/
theorem read_layouts (body : List Line) (hsingle : ∀ line ∈ body, '\n' ∉ line)
    (hopen : ∀ line ∈ body, ¬['*', '/'] <:+: line) (left right : Nat → Margin) :
    let documentation := readBody (dedent body)
    let result := if documentation.isEmpty then .error .empty else .ok documentation
    read ((Layout.slashes left).write body) = result ∧
      read ((Layout.stars right).write body) = result ∧
      ((∃ line ∈ body, isBlankText line = false ∧ (trimStart line).head? ≠ some '*') →
        read (Layout.bare.write body) = result) := by
  refine ⟨read_of_body (Layout.body_slashes left hsingle), ?_, fun hbare => ?_⟩
  · exact read_of_body (Layout.body_stars right hsingle hopen)
  · exact read_of_body (Layout.body_bare hsingle hopen hbare)

/-- A body with an item that is marked by a star, an indent and a carriage return, in all three layouts. -/
theorem read_layouts_item :
    let body := ["  Adds.\r".toList, [], "  * Note: of numbers,".toList, "    /* any.".toList]
    let left : Nat → Margin := fun i =>
      ⟨List.replicate i '\t', fun c hc => (List.mem_replicate.mp hc).2 ▸ rfl, by simp⟩
    let right : Nat → Margin := fun _ => ⟨"\u3000 ".toList, by simp [isBlank], by decide⟩
    let documentation : Documentation :=
      { summary := some "Adds.", callouts := [⟨"Note", "of numbers, /* any."⟩] }
    (∀ line ∈ body, '\n' ∉ line) ∧ (∀ line ∈ body, ¬['*', '/'] <:+: line) ∧
      read ((Layout.slashes left).write body) = .ok documentation ∧
      read ((Layout.stars right).write body) = .ok documentation ∧
      read (Layout.bare.write body) = .ok documentation := by
  intro body left right documentation
  have hsingle : ∀ line ∈ body, '\n' ∉ line := by simp [body]
  have hopen : ∀ line ∈ body, ¬['*', '/'] <:+: line := by
    simp [body, List.infix_cons_iff]
  have hbare : ∃ line ∈ body, isBlankText line = false ∧ (trimStart line).head? ≠ some '*' :=
    ⟨_, List.mem_cons_self, by decide, by decide⟩
  have hresult : readBody (dedent body) = documentation := by decide +kernel
  obtain ⟨hslashes, hstars, hblock⟩ := read_layouts body hsingle hopen left right
  rw [hresult] at hslashes hstars hblock
  exact ⟨hsingle, hopen, hslashes, hstars, hblock hbare⟩

end DocIndex.Markup
