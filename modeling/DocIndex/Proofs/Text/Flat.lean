import DocIndex.Proofs.Text.Nesting
import DocIndex.Proofs.Text.Words

/-! # Flat text

A text is flat if the plain space is the only blank in it, so it stands in one line (`IsFlat.lines_eq`). Compact text is
flat, and so is whatever is cut out of flat text. -/

namespace DocIndex.Text

/-- No character of the text is blank but the plain space. -/
def IsFlat (text : List Char) : Prop :=
  ∀ c ∈ text, isBlank c = true → c = ' '

instance (text : List Char) : Decidable (IsFlat text) :=
  decidable_of_iff (text.all fun c => !isBlank c || c == ' ') (by simp [IsFlat, Decidable.imp_iff_not_or])

/-- No character of the text is blank. -/
def IsVisible (text : List Char) : Prop :=
  ∀ c ∈ text, isBlank c = false

instance (text : List Char) : Decidable (IsVisible text) :=
  decidable_of_iff (text.all fun c => !isBlank c) (by simp [IsVisible])

variable {text part before after : List Char} {mark : Char}

@[simp] theorem isFlat_nil : IsFlat [] :=
  List.forall_mem_nil _

@[simp] theorem isFlat_cons {c : Char} : IsFlat (c :: text) ↔ (isBlank c = true → c = ' ') ∧ IsFlat text :=
  List.forall_mem_cons

@[simp] theorem isFlat_append {first second : List Char} : IsFlat (first ++ second) ↔ IsFlat first ∧ IsFlat second :=
  List.forall_mem_append

theorem IsFlat.of_subset (h : IsFlat text) (hpart : part ⊆ text) : IsFlat part :=
  fun c hc => h c (hpart hc)

theorem IsVisible.isFlat (h : IsVisible text) : IsFlat text := fun c hc hblank => by
  rw [h c hc] at hblank
  cases hblank

theorem IsFlat.lines_eq (h : IsFlat text) (hne : text ≠ []) : lines text = [text] :=
  lines_single (fun hnewline => absurd (h '\n' hnewline (by decide)) (by decide)) hne

/-! ### Words -/

theorem isFlat_intercalate {link : List Char} (hlink : IsFlat link) {pieces : List (List Char)} :
    IsFlat (link.intercalate pieces) ↔ ∀ piece ∈ pieces, IsFlat piece := by
  induction pieces with
  | nil => simp
  | cons piece rest ih =>
    cases rest with
    | nil => simp
    | cons next rest => simp [hlink, ih]

theorem isFlat_flatMap {α : Type} {items : List α} {render : α → List Char} :
    IsFlat (items.flatMap render) ↔ ∀ item ∈ items, IsFlat (render item) :=
  List.forall_mem_flatMap

theorem isFlat_of_mem_words (h : part ∈ words text) : IsFlat part :=
  IsVisible.isFlat (isWord_of_mem_words h).2

@[simp] theorem isFlat_compact (text : List Char) : IsFlat (compact text) :=
  (isFlat_intercalate (by decide)).mpr fun _ => isFlat_of_mem_words

/-! ### Cuts -/

theorem IsFlat.dropWhile (h : IsFlat text) (p : Char → Bool) : IsFlat (text.dropWhile p) :=
  h.of_subset (List.dropWhile_subset p)

theorem IsFlat.trim (h : IsFlat text) : IsFlat (trim text) :=
  h.of_subset (trim_isInfix text).subset

theorem IsFlat.dropStart {start : List Char} (h : IsFlat text) : IsFlat (dropStart start text) := by
  rw [Text.dropStart]
  cases hstart : start.isPrefixOf? text with
  | none => exact h
  | some rest =>
    rw [← List.isPrefixOf?_eq_some_iff_append_eq.mp hstart] at h
    exact (isFlat_append.mp h).2

theorem IsFlat.parts (h : IsFlat (before ++ mark :: after)) : IsFlat before ∧ IsFlat after :=
  ⟨(isFlat_append.mp h).1, (isFlat_cons.mp (isFlat_append.mp h).2).2⟩

theorem IsFlat.cutAt (h : IsFlat text) (hcut : cutAt mark text = some (before, after)) :
    IsFlat before ∧ IsFlat after := by
  obtain ⟨rfl, -⟩ := cutAt_eq_some_iff.mp hcut
  exact h.parts

theorem IsFlat.cutTop (h : IsFlat text) (hcut : cutTop mark text = some (before, after)) :
    IsFlat before ∧ IsFlat after := by
  obtain ⟨rfl, -⟩ := cutTopFrom_eq_some_iff.mp hcut
  exact h.parts

theorem IsFlat.of_mem_piecesFrom (h : IsFlat text) (hpart : part ∈ piecesFrom mark .start text) : IsFlat part := by
  induction text using pieceInduction mark with
  | single piece hpiece =>
    rw [piecesFrom_eq_singleton hpiece, List.mem_singleton] at hpart
    exact hpart ▸ h
  | before piece rest hpiece htop ih =>
    rw [piecesFrom_append_cons hpiece htop, List.mem_cons] at hpart
    rcases hpart with rfl | hpart
    · exact h.parts.1
    · exact ih h.parts.2 hpart

theorem IsFlat.of_mem_splitTop (h : IsFlat text) (hpart : part ∈ splitTop mark text) : IsFlat part := by
  obtain ⟨raw, hraw, rfl⟩ := List.mem_map.mp (List.mem_filter.mp hpart).1
  exact (h.of_mem_piecesFrom hraw).trim

end DocIndex.Text
