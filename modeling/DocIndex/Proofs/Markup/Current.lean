import DocIndex.Markup.Reader

/-! # The open field

Between two lines the open field of a reader is the last of its kind (`Reader.Sound.foldl`), so a line that
continues it goes to the field that was read last, and never past the end of a list. -/

namespace DocIndex.Markup

open Text

/-- The field is there, and no later one of its kind. -/
def FieldRef.IsLast (documentation : Documentation) : FieldRef → Prop
  | parameter index => index + 1 = documentation.parameters.length
  | callout index => index + 1 = documentation.callouts.length
  | returns => documentation.returns.isSome
  | throws => documentation.throws.isSome

/-- More text in the fields leaves the last field the last. -/
theorem FieldRef.IsLast.mono {before after : Documentation} {ref : FieldRef} (h : ref.IsLast before)
    (hparameters : after.parameters.length = before.parameters.length)
    (hcallouts : after.callouts.length = before.callouts.length)
    (hreturns : before.returns.isSome → after.returns.isSome)
    (hthrows : before.throws.isSome → after.throws.isSome) : ref.IsLast after := by
  cases ref with
  | parameter index => exact h.trans hparameters.symm
  | callout index => exact h.trans hcallouts.symm
  | returns => exact hreturns h
  | throws => exact hthrows h

namespace Reader

theorem endParagraph_documentation (reader : Reader) : reader.endParagraph.documentation = reader.documentation := by
  rw [endParagraph]
  split <;> rfl

theorem endParagraph_pending (reader : Reader) : reader.endParagraph.pending = [] := by
  rw [endParagraph]
  split
  next hpending => exact List.isEmpty_iff.mp hpending
  next => rfl

theorem endParagraph_code (reader : Reader) : reader.endParagraph.code = reader.code := by
  rw [endParagraph]
  split <;> rfl

theorem endParagraph_of_pending_nil {reader : Reader} (h : reader.pending = []) : reader.endParagraph = reader := by
  simp [endParagraph, h]

theorem endParagraph_listIndent (reader : Reader) : reader.endParagraph.listIndent = reader.listIndent := by
  rw [endParagraph]
  split <;> rfl

/-- What holds between two lines: the open field is the last one, and what stands outside of fields is not yet
told apart. -/
structure Sound (reader : Reader) : Prop where
  current : ∀ ref indent, reader.current = some (ref, indent) → ref.IsLast reader.documentation
  summary : reader.documentation.summary = none

theorem sound_empty : Sound {} :=
  ⟨nofun, rfl⟩

namespace Sound

variable {reader : Reader}

theorem endParagraph (h : reader.Sound) : reader.endParagraph.Sound := by
  unfold Reader.endParagraph
  split
  · exact h
  · exact ⟨h.current, h.summary⟩

theorem leaveField (h : reader.Sound) : ({ reader with current := none } : Reader).Sound :=
  ⟨nofun, h.summary⟩

theorem closeList (h : reader.Sound) (listIndent : Option Nat) : ({ reader with listIndent } : Reader).Sound :=
  ⟨h.current, h.summary⟩

theorem addTo (h : reader.Sound) (ref : FieldRef) (text : List Char) : (reader.addTo ref text).Sound := by
  refine ⟨fun other indent hother => ?_, ?_⟩
  · have hlast : other.IsLast reader.documentation := by
      cases ref <;> exact h.current other indent hother
    cases ref with
    | parameter index => exact hlast.mono (List.length_modify ..) rfl id id
    | callout index => exact hlast.mono rfl (List.length_modify ..) id id
    | returns => exact hlast.mono rfl rfl (fun _ => rfl) id
    | throws => exact hlast.mono rfl rfl id fun _ => rfl
  · cases ref <;> exact h.summary

theorem openField (h : reader.Sound) (bullet : Bullet) (field : Field) :
    (reader.openField bullet field).Sound := by
  refine ⟨fun ref indent href => ?_, ?_⟩
  · cases field <;> cases href <;> simp [Reader.openField, openParameter, FieldRef.IsLast, Reader.addTo]
  · cases field <;> exact h.summary

theorem openParameter (h : reader.Sound) (indent : Nat) (name description : List Char) :
    (reader.openParameter indent name description).Sound :=
  h.openField ⟨indent, [], description⟩ (.parameter name)

theorem readText (h : reader.Sound) (line : Line) : (reader.readText line).Sound := by
  rw [Reader.readText]
  split
  · exact h.addTo _ line
  · exact ⟨nofun, h.summary⟩

theorem readBullet (h : reader.Sound) (line : Line) (bullet : Bullet) :
    (reader.readBullet line bullet).Sound := by
  unfold Reader.readBullet
  split
  · exact h.endParagraph.openParameter _ _ _
  · split
    · exact (h.closeList none).endParagraph.openField bullet _
    · exact (h.closeList none).readText line

theorem readLine (h : reader.Sound) (line : Line) : (reader.readLine line).Sound := by
  unfold Reader.readLine
  split
  · exact h.endParagraph.leaveField
  · split
    · exact h.readBullet line _
    · exact h.readText line

theorem step (h : reader.Sound) (line : Line) : (reader.step line).Sound := by
  unfold Reader.step
  split
  · split <;> exact ⟨h.current, h.summary⟩
  · split
    · exact ⟨nofun, h.endParagraph.summary⟩
    · exact h.readLine line

theorem foldl (h : reader.Sound) (lines : List Line) : (lines.foldl Reader.step reader).Sound := by
  induction lines generalizing reader with
  | nil => exact h
  | cons line rest ih => exact ih (h.step line)

end Sound

end Reader

end DocIndex.Markup
