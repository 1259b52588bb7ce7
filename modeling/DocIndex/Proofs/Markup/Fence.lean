import DocIndex.Proofs.Markup.Current

/-! # Code between fences

A block of code is kept as it is written, and nothing else that is read depends on it (`readBody_fenced`). Two
facts carry this: reading never looks at the paragraphs that are finished, it only adds to them
(`foldl_step_behind`), and between two fences it does nothing but gather lines (`foldl_step_fenced`). -/

namespace DocIndex.Markup

open Text

namespace Reader

/-- The reader with more paragraphs finished before its own. -/
def behind (before : List Paragraph) (reader : Reader) : Reader :=
  { reader with finished := before ++ reader.finished }

section

variable (before : List Paragraph) (reader : Reader)

theorem endParagraph_behind : (reader.behind before).endParagraph = reader.endParagraph.behind before := by
  by_cases h : reader.pending = [] <;> simp [endParagraph, behind, h]

theorem endCode_behind : (reader.behind before).endCode = reader.endCode.behind before := by
  cases h : reader.code <;> simp [endCode, behind, h]

theorem addTo_behind (ref : FieldRef) (text : List Char) :
    (reader.behind before).addTo ref text = (reader.addTo ref text).behind before := by
  cases ref <;> rfl

theorem openField_behind (bullet : Bullet) (field : Field) :
    (reader.behind before).openField bullet field = (reader.openField bullet field).behind before := by
  cases field <;> rfl

theorem readText_behind (line : Line) :
    (reader.behind before).readText line = (reader.readText line).behind before := by
  have hcurrent : (reader.behind before).current = reader.current := rfl
  rw [readText, readText, hcurrent]
  split
  next ref indent _ => exact addTo_behind before reader ref line
  next => rfl

theorem readBullet_behind (line : Line) (bullet : Bullet) :
    (reader.behind before).readBullet line bullet = (reader.readBullet line bullet).behind before := by
  have hlist : (reader.behind before).listHolds bullet.indent = reader.listHolds bullet.indent := rfl
  rw [readBullet, readBullet, hlist]
  split
  next => rw [endParagraph_behind]; rfl
  next =>
    have hclosed : { reader.behind before with listIndent := none } =
      ({ reader with listIndent := none } : Reader).behind before := rfl
    simp only [hclosed]
    split
    next field _ => rw [endParagraph_behind, openField_behind]
    next => exact readText_behind before _ line

theorem readLine_behind (line : Line) :
    (reader.behind before).readLine line = (reader.readLine line).behind before := by
  rw [readLine, readLine]
  split
  next => rw [endParagraph_behind]; rfl
  next =>
    split
    next bullet _ => exact readBullet_behind before reader line bullet
    next => exact readText_behind before reader line

theorem step_behind (line : Line) : (reader.behind before).step line = (reader.step line).behind before := by
  have hcode : (reader.behind before).code = reader.code := rfl
  rw [step, step, hcode]
  split
  next lines _ =>
    split
    next => simp [behind]
    next => rfl
  next =>
    split
    next => rw [endParagraph_behind]; rfl
    next => exact readLine_behind before reader line

end

theorem foldl_step_behind (before : List Paragraph) : ∀ (lines : List Line) (reader : Reader),
    lines.foldl step (reader.behind before) = (lines.foldl step reader).behind before
  | [], _ => rfl
  | line :: rest, reader => by
    rw [List.foldl_cons, step_behind, foldl_step_behind before rest, List.foldl_cons]

/-! ### Between two fences -/

theorem foldl_step_code : ∀ (reader : Reader) {inner : List Line} {code : List String},
    reader.code = some code → (∀ line ∈ inner, isFence line = false) →
    inner.foldl step reader = { reader with code := some (code ++ inner.map String.ofList) }
  | reader, [], code, hcode, _ => by rw [List.map_nil, List.append_nil, ← hcode]; rfl
  | reader, line :: rest, code, hcode, hinner => by
    obtain ⟨hline, hrest⟩ := List.forall_mem_cons.mp hinner
    have hstep : reader.step line = { reader with code := some (code ++ [String.ofList line]) } := by
      simp [step, hcode, hline]
    rw [List.foldl_cons, hstep, foldl_step_code _ rfl hrest, List.append_assoc]
    rfl

/-- From fence to fence the paragraph under way ends, the open field is left, and one block of code is added. -/
theorem foldl_step_fenced {reader : Reader} (hcode : reader.code = none) {opening closing : Line}
    (hopening : isFence opening = true) (hclosing : isFence closing = true) {inner : List Line}
    (hinner : ∀ line ∈ inner, isFence line = false) :
    (opening :: inner ++ [closing]).foldl step reader =
      ({ reader.endParagraph with current := none, finished := [] } : Reader).behind
        (reader.endParagraph.finished ++ [codeBlock ((opening :: inner ++ [closing]).map String.ofList)]) := by
  have hopen : reader.step opening =
      { reader.endParagraph with current := none, code := some [String.ofList opening] } := by
    simp [step, hcode, hopening]
  have hinside := foldl_step_code (reader.step opening) (congrArg code hopen) hinner
  have hnone : reader.endParagraph.code = none := reader.endParagraph_code.trans hcode
  rw [List.cons_append, List.foldl_cons, List.foldl_append, hinside, List.foldl_cons, List.foldl_nil, hopen]
  simp [step, hclosing, behind, hnone]

/-! ### The end of a body -/

/-- A finished block of code is one of the parts of the discussion, and the summary and the other parts do not
depend on it. -/
theorem exists_result_behind_code (before : List Paragraph) (reader : Reader) :
    ∃ (documentation : Documentation) (above below : List String), ∀ lines : List String,
      (reader.behind (before ++ [codeBlock lines])).result =
        { documentation with discussion := above ++ "\n".intercalate lines :: below } := by
  let last := reader.endCode.endParagraph
  have hlast : ∀ before, (reader.behind before).endCode.endParagraph = last.behind before := fun before => by
    rw [endCode_behind, endParagraph_behind]
  cases before with
  | nil =>
    -- With nothing before it, the code comes first and there is no summary.
    refine ⟨last.documentation, [], last.finished.map (·.text), fun lines => ?_⟩
    rw [result, hlast]
    rfl
  | cons first rest =>
    cases first with
    | prose summary =>
      refine ⟨{ last.documentation with summary := some summary }, rest.map (·.text),
        last.finished.map (·.text), fun lines => ?_⟩
      rw [result, hlast]
      simp [behind, codeBlock, Paragraph.text]
    | code text =>
      refine ⟨last.documentation, text :: rest.map (·.text), last.finished.map (·.text), fun lines => ?_⟩
      rw [result, hlast]
      simp [behind, codeBlock, Paragraph.text]

end Reader

/-- Lines between two fences are one part of the discussion, as they are written, and all else in the
documentation is the same whatever they are. -/
theorem readBody_fenced (pre post : List Line) (opening closing : Line) (hopening : isFence opening = true)
    (hclosing : isFence closing = true) (hpre : (pre.foldl Reader.step {}).code = none) :
    ∃ (documentation : Documentation) (above below : List String), ∀ inner : List Line,
      (∀ line ∈ inner, isFence line = false) →
      readBody (pre ++ [opening] ++ inner ++ [closing] ++ post) =
        { documentation with
          discussion :=
            above ++ "\n".intercalate (([opening] ++ inner ++ [closing]).map String.ofList) :: below } := by
  let reader := pre.foldl Reader.step {}
  let after := post.foldl Reader.step { reader.endParagraph with current := none, finished := [] }
  obtain ⟨documentation, above, below, hresult⟩ :=
    Reader.exists_result_behind_code reader.endParagraph.finished after
  refine ⟨documentation, above, below, fun inner hinner => ?_⟩
  have hlines :
      pre ++ [opening] ++ inner ++ [closing] ++ post = pre ++ ((opening :: inner ++ [closing]) ++ post) := by
    simp
  rw [readBody, hlines, List.foldl_append, List.foldl_append,
    Reader.foldl_step_fenced hpre hopening hclosing hinner, Reader.foldl_step_behind, hresult]
  rfl

/-- A bullet between fences is code, and leaves the field of the same kind above it as it is. -/
theorem readBody_fenced_bullet :
    let opening := "~~~ swift".toList
    let closing := "  ~~~".toList
    let inner := [[], "- Returns: no".toList]
    let body (inner : List Line) :=
      ["Adds.".toList, "- Returns: a sum".toList] ++ [opening] ++ inner ++ [closing] ++ ["of numbers".toList]
    isFence opening = true ∧ isFence closing = true ∧ (∀ line ∈ inner, isFence line = false) ∧
      (readBody (body inner)).returns = some "a sum" ∧
      ∃ above below, (readBody (body inner)).discussion = above ++ "~~~ swift\n\n- Returns: no\n  ~~~" :: below ∧
        (readBody (body [])).discussion = above ++ "~~~ swift\n  ~~~" :: below := by
  intro opening closing inner body
  have hopening : isFence opening = true := by decide
  have hclosing : isFence closing = true := by decide
  have hinner : ∀ line ∈ inner, isFence line = false := by decide
  obtain ⟨documentation, above, below, h⟩ := readBody_fenced ["Adds.".toList, "- Returns: a sum".toList]
    ["of numbers".toList] opening closing hopening hclosing (by decide)
  have hempty := h [] (fun _ hline => absurd hline List.not_mem_nil)
  have hreturns : documentation.returns = some "a sum" := by
    have hread : (readBody (body [])).returns = some "a sum" := by decide +kernel
    exact (congrArg Documentation.returns hempty).symm.trans hread
  refine ⟨hopening, hclosing, hinner, ?_, above, below, ?_, ?_⟩
  · exact (congrArg Documentation.returns (h inner hinner)).trans hreturns
  · exact congrArg Documentation.discussion (h inner hinner)
  · exact congrArg Documentation.discussion hempty

end DocIndex.Markup
