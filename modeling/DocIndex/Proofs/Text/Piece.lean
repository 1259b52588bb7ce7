import DocIndex.Text.Blank

/-! # Pieces of a text

A piece of a text is a longest run of characters none of which parts it. Where two texts meet, the last piece of the
first and the first piece of the second become one (`exists_splitOnP_append`). So a character that parts nothing can
stand for a whole stretch that starts with it, as far as pieces without that character are concerned
(`mem_splitOnP_stretch`). -/

namespace DocIndex.Text

variable {parts : Char → Bool} {mark : Char} {piece : List Char}

/-- What comes before the seam stays as it is, but for the last piece, which goes on. -/
theorem exists_splitOnP_append (parts : Char → Bool) (left : List Char) :
    ∃ pieces last, ∀ right,
      (left ++ right).splitOnP parts = pieces ++ (right.splitOnP parts).modifyHead (last ++ ·) := by
  induction left with
  | nil => exact ⟨[], [], fun right => by cases hright : right.splitOnP parts <;> simp [hright]⟩
  | cons c rest ih =>
    obtain ⟨pieces, last, hpieces⟩ := ih
    cases hc : parts c with
    | true =>
      refine ⟨[] :: pieces, last, fun right => ?_⟩
      rw [List.cons_append, List.splitOnP_cons_eq_if_modifyHead, if_pos hc, hpieces, List.cons_append]
    | false =>
      have hne : ¬parts c = true := by simp [hc]
      cases pieces with
      | nil =>
        refine ⟨[], c :: last, fun right => ?_⟩
        rw [List.cons_append, List.splitOnP_cons_eq_if_modifyHead, if_neg hne, hpieces]
        cases right.splitOnP parts <;> simp
      | cons first others =>
        refine ⟨(c :: first) :: others, last, fun right => ?_⟩
        rw [List.cons_append, List.splitOnP_cons_eq_if_modifyHead, if_neg hne, hpieces]
        rfl

/-- A piece without the mark stands on one side of it. -/
theorem mem_splitOnP_mark (hmark : parts mark = false) (hpiece : mark ∉ piece) (left right : List Char) :
    piece ∈ (left ++ mark :: right).splitOnP parts ↔
      piece ∈ (left ++ [mark]).splitOnP parts ∨ piece ∈ (mark :: right).splitOnP parts := by
  obtain ⟨pieces, last, hpieces⟩ := exists_splitOnP_append parts left
  obtain ⟨first, others, hright⟩ := List.exists_cons_of_ne_nil (List.splitOnP_ne_nil parts right)
  have hcons : (mark :: right).splitOnP parts = (mark :: first) :: others := by
    rw [List.splitOnP_cons_eq_if_modifyHead, if_neg (by simp [hmark]), hright, List.modifyHead_cons]
  have hone : [mark].splitOnP parts = [[mark]] := List.splitOnP_eq_singleton (List.forall_mem_singleton.mpr hmark)
  have hwith : ∀ before after : List Char, piece ≠ before ++ mark :: after := fun before after heq =>
    hpiece (heq ▸ List.mem_append_right before List.mem_cons_self)
  have hlast := hwith last []
  have hseam := hwith last first
  have hfirst := hwith [] first
  rw [hpieces, hpieces, hcons, hone]
  simp_all

/-- A stretch that starts with the mark, and ends with it or before something that parts the text, has the pieces of
the mark in its place and its own. -/
theorem mem_splitOnP_stretch (hmark : parts mark = false) (hpiece : mark ∉ piece) {stretch : List Char}
    (hstart : stretch.head? = some mark) {right : List Char}
    (hstop : stretch.getLast? = some mark ∨ ∀ next ∈ right.head?, parts next = true) (left : List Char) :
    piece ∈ (left ++ (stretch ++ right)).splitOnP parts ↔
      piece ∈ (left ++ mark :: right).splitOnP parts ∨ piece ∈ stretch.splitOnP parts := by
  have hone : piece ∉ [mark].splitOnP parts := by
    rw [List.splitOnP_eq_singleton (List.forall_mem_singleton.mpr hmark), List.mem_singleton]
    rintro rfl
    exact hpiece List.mem_cons_self
  have htail : piece ∈ (stretch ++ right).splitOnP parts ↔
      piece ∈ (mark :: right).splitOnP parts ∨ piece ∈ stretch.splitOnP parts := by
    rcases hstop with hlast | hnext
    · obtain ⟨front, rfl⟩ := List.getLast?_eq_some_iff.mp hlast
      rw [List.append_assoc, List.singleton_append, mem_splitOnP_mark hmark hpiece, or_comm]
    · cases right with
      | nil => rw [List.append_nil, or_iff_right hone]
      | cons next rest =>
        have hparts := hnext next rfl
        have hmarked := List.splitOnP_append_cons [mark] rest hparts
        rw [List.singleton_append] at hmarked
        rw [List.splitOnP_append_cons stretch rest hparts, hmarked, List.mem_append, List.mem_append,
          or_iff_right hone, or_comm]
  obtain ⟨rest, rfl⟩ := List.head?_eq_some_iff.mp hstart
  rw [List.cons_append, mem_splitOnP_mark hmark hpiece, ← List.cons_append, htail, ← or_assoc,
    ← mem_splitOnP_mark hmark hpiece]

end DocIndex.Text
