import Mathlib.Data.List.Induction
import DocIndex.Proofs.Markup.Current
import DocIndex.Proofs.Markup.Reread

/-! # The most recent field

A line leaves the fields as they are, continues the open field or starts a new one (`Steady.outcome`). So the open
field is the one that was started last, and every line since then has continued it (`openSince_of_current`): text is
never added to an older field, nor to one that is not there. -/

namespace DocIndex.Markup

open Text

/-! ### Changes of the fields -/

/-- A new field stands behind the others of its kind. The result and the errors have one field each, which starts
anew. -/
inductive Started (before : Documentation) : FieldRef → Documentation → Prop
  | parameter (note : ParameterNote) :
    Started before (.parameter before.parameters.length) { before with parameters := before.parameters ++ [note] }
  | returns (text : String) : Started before .returns { before with returns := some text }
  | throws (text : String) : Started before .throws { before with throws := some text }
  | callout (callout : Callout) :
    Started before (.callout before.callouts.length) { before with callouts := before.callouts ++ [callout] }

/-- A field that is there, and the last of its kind, has more text. All others are as before. -/
inductive Continued (line : Line) (before : Documentation) : FieldRef → Documentation → Prop
  | parameter (older : List ParameterNote) (note : ParameterNote) (h : before.parameters = older ++ [note]) :
    Continued line before (.parameter older.length)
      { before with parameters := older ++ [{ note with description := extend note.description line }] }
  | returns (text : String) (h : before.returns = some text) :
    Continued line before .returns { before with returns := some (extend text line) }
  | throws (text : String) (h : before.throws = some text) :
    Continued line before .throws { before with throws := some (extend text line) }
  | callout (older : List Callout) (callout : Callout) (h : before.callouts = older ++ [callout]) :
    Continued line before (.callout older.length)
      { before with callouts := older ++ [{ callout with content := extend callout.content line }] }

theorem exists_concat_of_length {α : Type} {index : Nat} {items : List α} (h : index + 1 = items.length) :
    ∃ older last, items = older ++ [last] ∧ older.length = index := by
  rcases List.eq_nil_or_concat items with rfl | ⟨older, last, rfl⟩
  · cases h
  · exact ⟨older, last, List.concat_eq_append, by simpa using h.symm⟩

namespace Reader

/-- Text that is added to the last field reaches it. -/
theorem addTo_continued (reader : Reader) {ref : FieldRef} (h : ref.IsLast reader.documentation) (line : Line) :
    Continued line reader.documentation ref (reader.addTo ref line).documentation := by
  cases ref with
  | parameter index =>
    obtain ⟨older, note, hparameters, rfl⟩ := exists_concat_of_length h
    rw [addTo, hparameters, modify_length_append]
    exact .parameter older note hparameters
  | callout index =>
    obtain ⟨older, callout, hcallouts, rfl⟩ := exists_concat_of_length h
    rw [addTo, hcallouts, modify_length_append]
    exact .callout older callout hcallouts
  | returns =>
    obtain ⟨text, htext⟩ := Option.isSome_iff_exists.mp h
    rw [addTo, htext]
    exact .returns text htext
  | throws =>
    obtain ⟨text, htext⟩ := Option.isSome_iff_exists.mp h
    rw [addTo, htext]
    exact .throws text htext

theorem addTo_current (reader : Reader) (ref : FieldRef) (line : Line) :
    (reader.addTo ref line).current = reader.current := by
  cases ref <;> rfl

/-! ### One line -/

/-- Whether a line outside code is a bullet that starts a field, or an item of the open list of parameters. -/
def startsField (reader : Reader) (line : Line) : Bool :=
  (Bullet.ofLine? line).any fun bullet =>
    reader.listHolds bullet.indent || (Field.ofLabel? bullet.label).isSome

/-- The ways to read a line. -/
inductive Reads (reader : Reader) (line : Line) : Reader → Prop
  /-- The line belongs to a block of code. -/
  | code (hcode : reader.code.isSome) (finished : List Paragraph) (code : Option (List String)) :
    Reads reader line { reader with finished, code }
  | fence (hfence : isFence line = true) :
    Reads reader line { reader.endParagraph with current := none, code := some [String.ofList line] }
  | blank (hblank : isBlankText line = true) : Reads reader line { reader.endParagraph with current := none }
  /-- The line starts a field, or a list of parameters. -/
  | field (hcode : reader.code = none) (hfield : reader.startsField line = true) (listIndent : Option Nat)
    (bullet : Bullet) (field : Field) :
    Reads reader line (({ reader with listIndent } : Reader).endParagraph.openField bullet field)
  | text (hcode : reader.code = none) (htext : isBlankText line = false) (listIndent : Option Nat) :
    Reads reader line (({ reader with listIndent } : Reader).readText line)

theorem reads_readBullet {reader : Reader} {line : Line} {bullet : Bullet} (hcode : reader.code = none)
    (htext : isBlankText line = false) (hbullet : Bullet.ofLine? line = some bullet) :
    Reads reader line (reader.readBullet line bullet) := by
  rw [readBullet]
  split
  next hitem =>
    exact .field hcode (by simp [startsField, hbullet, hitem]) reader.listIndent bullet (.parameter bullet.label)
  next =>
    split
    next field hlabel => exact .field hcode (by simp [startsField, hbullet, hlabel]) none bullet field
    next => exact .text hcode htext none

theorem reads_step (reader : Reader) (line : Line) : Reads reader line (reader.step line) := by
  rw [step]
  split
  next lines hcode =>
    have hopen : reader.code.isSome := Option.isSome_of_eq_some hcode
    split <;> exact .code hopen _ _
  next hcode =>
    split
    next hfence => exact .fence hfence
    next =>
      rw [readLine]
      split
      next hblank => exact .blank hblank
      next hblank =>
        have htext : isBlankText line = false := Bool.eq_false_iff.mpr hblank
        split
        next bullet hbullet => exact reads_readBullet hcode htext hbullet
        next => exact .text hcode htext reader.listIndent

theorem openField_pending (reader : Reader) (bullet : Bullet) (field : Field) :
    (reader.openField bullet field).pending = reader.pending := by
  cases field <;> rfl

theorem openField_code (reader : Reader) (bullet : Bullet) (field : Field) :
    (reader.openField bullet field).code = reader.code := by
  cases field <;> rfl

/-- A bullet with a label starts a field, but for the one that starts a list of parameters. -/
theorem openField_started (reader : Reader) (bullet : Bullet) (field : Field) :
    ((reader.openField bullet field).current = none ∧
        (reader.openField bullet field).documentation = reader.documentation) ∨
      ∃ ref indent, (reader.openField bullet field).current = some (ref, indent) ∧
        Started reader.documentation ref (reader.openField bullet field).documentation := by
  cases field with
  | parameters => exact .inl ⟨rfl, rfl⟩
  | parameter name => exact .inr ⟨_, _, rfl, .parameter _⟩
  | returns => exact .inr ⟨_, _, rfl, .returns _⟩
  | throws => exact .inr ⟨_, _, rfl, .throws _⟩
  | callout delimiter => exact .inr ⟨_, _, rfl, .callout _⟩

/-- Text that starts no field continues the open one if it is indented deeper, and is prose otherwise. -/
theorem readText_cases (reader : Reader) (line : Line) :
    (∃ ref indent, reader.current = some (ref, indent) ∧ indent < indentWidth line ∧
        reader.readText line = reader.addTo ref line) ∨
      (∀ ref indent, reader.current = some (ref, indent) → indentWidth line ≤ indent) ∧
        ∃ listIndent, reader.readText line =
          { reader with current := none, listIndent, pending := reader.pending ++ [String.ofList (trim line)] } := by
  rw [readText]
  split
  next ref indent hcurrent =>
    obtain ⟨hopen, hdeeper⟩ := Option.filter_eq_some_iff.mp hcurrent
    exact .inl ⟨ref, indent, hopen, of_decide_eq_true hdeeper, rfl⟩
  next hclosed =>
    refine .inr ⟨fun ref indent hopen => Nat.le_of_not_lt fun hdeeper => ?_, _, rfl⟩
    exact Option.filter_eq_none_iff.mp hclosed (ref, indent) hopen (decide_eq_true hdeeper)

/-- What holds between two lines: the open field is the last one, there is none in a block of code, and no line of
the paragraph under way is empty. -/
structure Steady (reader : Reader) : Prop extends Sound reader where
  pending : ∀ text ∈ reader.pending, text ≠ ""
  code : reader.code.isSome → reader.current = none

theorem steady_empty : Steady {} where
  toSound := sound_empty
  pending _ h := by cases h
  code _ := rfl

/-- What a line does to the fields, and which field is open after it. -/
inductive Outcome (line : Line) (before after : Reader) : Prop
  | kept (hdocumentation : after.documentation = before.documentation) (hcurrent : after.current = none)
  /-- The line continues the open field. -/
  | continued (ref : FieldRef) (indent : Nat) (hopen : before.current = some (ref, indent))
    (hdeeper : indent < indentWidth line) (hcurrent : after.current = some (ref, indent))
    (hfield : Continued line before.documentation ref after.documentation)
  | started (ref : FieldRef) (indent : Nat) (hcurrent : after.current = some (ref, indent))
    (hfield : Started before.documentation ref after.documentation)

/-- The line is ordinary text, indented deeper than a bullet at `indent`. -/
structure Continues (reader : Reader) (indent : Nat) (line : Line) : Prop where
  text : isBlankText line = false
  noFence : isFence line = false
  noField : reader.startsField line = false
  deeper : indent < indentWidth line

namespace Steady

variable {reader : Reader}

theorem outcome (h : reader.Steady) (line : Line) : Outcome line reader (reader.step line) := by
  have hreads := reads_step reader line
  generalize reader.step line = after at hreads
  cases hreads with
  | code hcode finished code => exact .kept rfl (h.code hcode)
  | fence | blank => exact .kept reader.endParagraph_documentation rfl
  | field hcode hfield listIndent bullet field =>
    have hended := ({ reader with listIndent } : Reader).endParagraph_documentation
    rcases openField_started ({ reader with listIndent } : Reader).endParagraph bullet field with
      ⟨hcurrent, hsame⟩ | ⟨ref, indent, hcurrent, hstarted⟩
    · exact .kept (hsame.trans hended) hcurrent
    · rw [hended] at hstarted
      exact .started ref indent hcurrent hstarted
  | text hcode htext listIndent =>
    rcases readText_cases ({ reader with listIndent } : Reader) line with
      ⟨ref, indent, hopen, hdeeper, hread⟩ | ⟨-, closed, hread⟩
    · rw [hread]
      exact .continued ref indent hopen hdeeper ((addTo_current _ ref line).trans hopen)
        (addTo_continued { reader with listIndent } (h.current ref indent hopen) line)
    · rw [hread]
      exact .kept rfl rfl

theorem step (h : reader.Steady) (line : Line) : (reader.step line).Steady := by
  have hsound := h.toSound.step line
  have hreads := reads_step reader line
  generalize reader.step line = after at hsound hreads
  cases hreads with
  | code hcode finished code => exact ⟨hsound, h.pending, fun _ => h.code hcode⟩
  | fence | blank =>
    refine ⟨hsound, fun text htext => ?_, fun _ => rfl⟩
    rw [endParagraph_pending] at htext
    cases htext
  | field hcode hfield listIndent bullet field =>
    refine ⟨hsound, fun text htext => ?_, fun hopen => ?_⟩
    · rw [openField_pending, endParagraph_pending] at htext
      cases htext
    · rw [openField_code, endParagraph_code, hcode] at hopen
      cases hopen
  | text hcode htext listIndent =>
    rcases readText_cases ({ reader with listIndent } : Reader) line with ⟨ref, indent, -, -, hread⟩ | ⟨-, closed, hread⟩
    · rw [hread] at hsound ⊢
      cases ref <;> exact ⟨hsound, h.pending, h.code⟩
    · rw [hread] at hsound ⊢
      refine ⟨hsound, fun text hmem => ?_, fun _ => rfl⟩
      rcases List.mem_append.mp hmem with hmem | hmem
      · exact h.pending text hmem
      · rw [List.mem_singleton.mp hmem]
        exact fun hempty => trim_ne_nil htext (String.ofList_eq_empty_iff.mp hempty)

/-- Text that is indented deeper than the bullet of the open field continues it. -/
theorem continued (h : reader.Steady) {ref : FieldRef} {indent : Nat} {line : Line}
    (hopen : reader.current = some (ref, indent)) (hline : reader.Continues indent line) :
    (reader.step line).current = some (ref, indent) ∧
      Continued line reader.documentation ref (reader.step line).documentation := by
  have hreads := reads_step reader line
  generalize reader.step line = after at hreads
  cases hreads with
  | code hcode finished code =>
    rw [h.code hcode] at hopen
    cases hopen
  | fence hfence =>
    rw [hline.noFence] at hfence
    cases hfence
  | blank hblank =>
    rw [hline.text] at hblank
    cases hblank
  | field hcode hfield listIndent bullet field =>
    rw [hline.noField] at hfield
    cases hfield
  | text hcode htext listIndent =>
    rcases readText_cases ({ reader with listIndent } : Reader) line with
      ⟨other, indent', hother, -, hread⟩ | ⟨houter, -⟩
    · obtain ⟨rfl, rfl⟩ := Prod.mk.inj (Option.some.inj (hopen.symm.trans hother))
      rw [hread]
      exact ⟨(addTo_current _ ref line).trans hopen,
        addTo_continued { reader with listIndent } (h.current ref indent hopen) line⟩
    · exact absurd (houter ref indent hopen) (Nat.not_le.mpr hline.deeper)

end Steady

/-! ### Many lines -/

/-- The reader after some lines. -/
def reached (lines : List Line) : Reader :=
  lines.foldl step {}

theorem reached_concat (lines : List Line) (line : Line) : reached (lines ++ [line]) = (reached lines).step line :=
  List.foldl_append

/-- One of the lines has started the field, and every line after it has continued it. -/
inductive OpenSince (ref : FieldRef) : List Line → Prop
  | started (lines : List Line) (line : Line)
    (h : Started (reached lines).documentation ref (reached (lines ++ [line])).documentation) :
    OpenSince ref (lines ++ [line])
  | continued (lines : List Line) (line : Line) (hopen : OpenSince ref lines)
    (h : Continued line (reached lines).documentation ref (reached (lines ++ [line])).documentation) :
    OpenSince ref (lines ++ [line])

theorem steady_reached (lines : List Line) : (reached lines).Steady := by
  induction lines using List.reverseRecOn with
  | nil => exact steady_empty
  | append_singleton lines line ih =>
    rw [reached_concat]
    exact ih.step line

theorem outcome_reached (lines : List Line) (line : Line) : Outcome line (reached lines) (reached (lines ++ [line])) := by
  rw [reached_concat]
  exact (steady_reached lines).outcome line

/-- The open field is the one that was started last. -/
theorem openSince_of_current {lines : List Line} {ref : FieldRef} {indent : Nat}
    (h : (reached lines).current = some (ref, indent)) : OpenSince ref lines := by
  induction lines using List.reverseRecOn generalizing indent with
  | nil => cases h
  | append_singleton lines line ih =>
    cases outcome_reached lines line with
    | kept hdocumentation hcurrent =>
      rw [hcurrent] at h
      cases h
    | continued other indent' hopen hdeeper hcurrent hfield =>
      obtain ⟨rfl, rfl⟩ := Prod.mk.inj (Option.some.inj (hcurrent.symm.trans h))
      exact .continued lines line (ih hopen) hfield
    | started other indent' hcurrent hfield =>
      obtain ⟨rfl, rfl⟩ := Prod.mk.inj (Option.some.inj (hcurrent.symm.trans h))
      exact .started lines line hfield

/-- After any lines the open field is there and the last of its kind, so more text for it reaches it alone. One of the
lines has started it, and each line since then has continued it. A further line continues it if it is text that is
indented deeper; in all cases a line leaves the fields as they are, continues the open one or starts a new one. No line
of the paragraph under way is empty. -/
theorem reached_fields (lines : List Line) :
    (∀ ref indent, (reached lines).current = some (ref, indent) →
      ref.IsLast (reached lines).documentation ∧ OpenSince ref lines ∧
        (∀ text, Continued text (reached lines).documentation ref ((reached lines).addTo ref text).documentation) ∧
        ∀ line, (reached lines).Continues indent line →
          (reached (lines ++ [line])).current = some (ref, indent) ∧
            Continued line (reached lines).documentation ref (reached (lines ++ [line])).documentation) ∧
      (∀ text ∈ (reached lines).pending, text ≠ "") ∧
      ∀ line, Outcome line (reached lines) (reached (lines ++ [line])) := by
  have hsteady := steady_reached lines
  refine ⟨fun ref indent hopen => ?_, hsteady.pending, outcome_reached lines⟩
  have hlast := hsteady.current ref indent hopen
  refine ⟨hlast, openSince_of_current hopen, addTo_continued _ hlast, fun line hline => ?_⟩
  rw [reached_concat]
  exact hsteady.continued hopen hline

/-- The second item of a list of parameters, continued by a line that starts with a mark but has no label. -/
theorem reached_fields_item :
    let lines := ["Moves".toList, "- Parameters:".toList, "  - x: right".toList, "  - y: up,".toList]
    let line := "   - in points".toList
    (reached lines).current = some (.parameter 1, 2) ∧ (reached lines).documentation.parameters.length = 2 ∧
      (reached lines).Continues 2 line ∧
      Continued line (reached lines).documentation (.parameter 1) (reached (lines ++ [line])).documentation ∧
      (reached (lines ++ [line])).documentation.parameters = [⟨"x", "right"⟩, ⟨"y", "up, - in points"⟩] := by
  intro lines line
  have hopen : (reached lines).current = some (.parameter 1, 2) := by decide
  have hline : (reached lines).Continues 2 line := ⟨by decide, by decide, by decide, by decide⟩
  obtain ⟨hfield, -, -⟩ := reached_fields lines
  obtain ⟨hlast, -, -, hcontinued⟩ := hfield (.parameter 1) 2 hopen
  exact ⟨hopen, hlast.symm, hline, (hcontinued line hline).2, by decide⟩

end Reader

end DocIndex.Markup
