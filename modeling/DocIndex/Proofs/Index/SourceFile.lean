import DocIndex.Index.SourceFile
import DocIndex.Proofs.Json.Layout
import DocIndex.Proofs.Symbol.Json

/-! # Indexes read back

The written form of the index of a file is read as that index again, whatever its texts hold
(`SourceFile.ofJson?_render`). -/

namespace DocIndex

namespace Json

/-- The quote, the backslash and the control characters below U+0020 are escaped, and nothing else. -/
theorem escape_ne_singleton_iff (c : Char) :
    escape c ≠ [c] ↔ c = '"' ∨ c = '\\' ∨ c.toNat < 0x20 := by
  by_cases hletter : c ∈ ['"', '\\', '\x08', '\t', '\n', '\x0c', '\r']
  · simp only [List.mem_cons, List.not_mem_nil, or_false] at hletter
    rcases hletter with rfl | rfl | rfl | rfl | rfl | rfl | rfl <;> decide
  · simp only [List.mem_cons, List.not_mem_nil, or_false, not_or] at hletter
    obtain ⟨hquote, hbackslash, hletter⟩ := hletter
    by_cases hcontrol : c.toNat < 0x20 <;> simp [escape, hquote, hbackslash, hletter, hcontrol]

end Json

namespace SourceFile

/-- All locations in the index fit in 64 bits. -/
def Fits (file : SourceFile) : Prop :=
  ∀ s ∈ file.symbols, s.Fits

theorem whole_toJson (file : SourceFile) : file.toJson.Whole := by
  simp [toJson]

theorem ofJson?_toJson {file : SourceFile} (h : file.Fits) : ofJson? file.toJson = some file := by
  have hsymbols : Json.list? Symbol.ofJson? (.list Symbol.toJson file.symbols) = some file.symbols :=
    Json.list?_list_of_mem fun s hs => Symbol.ofJson?_toJson (h s hs)
  simp [ofJson?, toJson, Json.fields?_object, hsymbols]

/-- The text of an index reads as JSON, and as the same index. It has an item or a member to a line, after two
spaces for each level. In its strings the quote, the backslash and the control characters below U+0020 are
escaped, and nothing else, so that no string breaks a line. -/
theorem ofJson?_render (file : SourceFile) (h : file.Fits) :
    (Json.parse? file.render.toList).bind ofJson? = some file ∧
      file.render.toList = ['\n'].intercalate ((Json.rows 0 [] [] file.toJson).map Json.Row.line) ∧
      (∀ row ∈ Json.rows 0 [] [] file.toJson, '\n' ∉ row.line) ∧
      ∀ c, Json.escape c ≠ [c] ↔ c = '"' ∨ c = '\\' ∨ c.toNat < 0x20 := by
  have hwhole := file.whole_toJson
  refine ⟨?_, Json.toList_pretty hwhole, fun row hrow hmem => ?_, Json.escape_ne_singleton_iff⟩
  · rw [render, Json.parse?_pretty hwhole]
    exact ofJson?_toJson h
  · exact absurd (Json.plain_line hwhole hrow '\n' hmem) (by decide)

/-- Quotes, backslashes and control characters in texts, and the largest number. -/
theorem ofJson?_render_escaped :
    let place : Location := ⟨"a\"b\\c.swift", 3, UInt64.size - 1, 0⟩
    let s : Symbol :=
      { declaration := ⟨⟨[], [⟨"public", none⟩], "var"⟩, .property "\n\x01é" none (some "\"\\\"") ["get"]⟩
        context := [.condition ⟨⟨[.ifTrue "DEBUG", .otherwise], place⟩, .otherwise⟩]
        documentation := { summary := some "\x7f\r\t" }
        location := place }
    let file : SourceFile := ⟨"a\"b\\c.swift", [], [s]⟩
    file.Fits ∧ (Json.parse? file.render.toList).bind ofJson? = some file := by
  intro place s file
  have hplace : place.Fits := ⟨by decide, by decide, by decide⟩
  have hframes : ∀ frame ∈ s.context, frame.Fits := List.forall_mem_singleton.mpr hplace
  have h : file.Fits := List.forall_mem_singleton.mpr ⟨hframes, hplace⟩
  exact ⟨h, (ofJson?_render file h).1⟩

end SourceFile

end DocIndex
