import DocIndex.Declaration.Generic
import DocIndex.Proofs.Text.Nesting

/-! # Requirements read again

A clause is cut at the first sign of its relation (`ofClause?_eq_some_iff`), and what a requirement renders to is the
same clause with other blanks around its sides. Such blanks change neither where a clause is cut
(`ofClause?_render`) nor where it ends (`apart_render`), so what is read from a rendered list is the list
(`parseAll_renderAll`), whatever the text that the list was read from. -/

namespace DocIndex

open Text

/-! ### Clauses -/

namespace Relation

/-- The sign at which a clause is cut. -/
def sign : Relation → List Char
  | sameType => ['=', '=']
  | conformance => [':']

/-- The sign as it is rendered. -/
def spacedSign : Relation → List Char
  | sameType => [' ', '=', '=', ' ']
  | conformance => [':', ' ']

/-- A clause with these sides is cut between them. A colon is looked for at the top level, and only in a clause
without equal signs. -/
def Cuts (left right : List Char) : Relation → Prop
  | sameType => ¬['=', '='] <:+: left ++ ['=']
  | conformance =>
    ¬['=', '='] <:+: left ++ ':' :: right ∧ cutTop ':' left = none ∧ (Scan.start.after left).isTop = true

theorem sign_plain (relation : Relation) : relation.sign ≠ [] ∧ ∀ c ∈ relation.sign, isPlain c = true := by
  cases relation <;> exact ⟨by decide, List.all_eq_true.mp (by decide)⟩

theorem spacedSign_plain (relation : Relation) :
    relation.spacedSign ≠ [] ∧ ∀ c ∈ relation.spacedSign, isPlain c = true := by
  cases relation <;> exact ⟨by decide, List.all_eq_true.mp (by decide)⟩

end Relation

namespace Requirement

variable {clause left right : List Char} {r : Requirement}

theorem ofClause?_of_cuts {relation : Relation} (h : relation.Cuts left right) :
    ofClause? (left ++ (relation.sign ++ right)) = some (between left relation right) := by
  cases relation with
  | sameType =>
    have hcut : cut ['=', '='] (left ++ (['=', '='] ++ right)) = some (left, right) :=
      (cut_eq_some_iff (by decide)).mpr ⟨rfl, h⟩
    show ofClause? (left ++ (['=', '='] ++ right)) = _
    rw [ofClause?, hcut]
  | conformance =>
    obtain ⟨hnone, hbefore, htop⟩ := h
    have hcut : cutTop ':' (left ++ ':' :: right) = some (left, right) :=
      cutTopFrom_eq_some_iff.mpr ⟨rfl, hbefore, htop⟩
    show ofClause? (left ++ ':' :: right) = _
    rw [ofClause?, cut_eq_none_iff.mpr hnone, hcut]
    rfl

theorem ofClause?_eq_some_iff :
    ofClause? clause = some r ↔
      ∃ left right, clause = left ++ (r.relation.sign ++ right) ∧ r.relation.Cuts left right ∧
        r = between left r.relation right := by
  constructor
  · intro h
    rw [ofClause?] at h
    split at h
    next left right hcut =>
      obtain rfl := Option.some.inj h
      obtain ⟨hclause, hfirst⟩ := (cut_eq_some_iff (by decide)).mp hcut
      exact ⟨left, right, hclause, hfirst, rfl⟩
    next hnone =>
      obtain ⟨⟨left, right⟩, hcut, rfl⟩ := Option.map_eq_some_iff.mp h
      obtain ⟨rfl, hbefore, htop⟩ := cutTopFrom_eq_some_iff.mp hcut
      exact ⟨left, right, rfl, ⟨cut_eq_none_iff.mp hnone, hbefore, htop⟩, rfl⟩
  · rintro ⟨left, right, rfl, hcuts, heq⟩
    rw [ofClause?_of_cuts hcuts, ← heq]

theorem between_congr {left' right' : List Char} (hleft : trim left = trim left') (hright : trim right = trim right')
    (relation : Relation) : between left relation right = between left' relation right' := by
  rw [between, between, hleft, hright]

theorem toList_render (left right : List Char) (relation : Relation) :
    (between left relation right).render.toList = trim left ++ (relation.spacedSign ++ trim right) := by
  cases relation <;> simp [render, between, Relation.spacedSign]

/-! ### Blanks around the sides -/

/-- Blanks before the left side and after the right side do not move the cut. -/
theorem cuts_trim {relation : Relation} (h : relation.Cuts left right) :
    relation.Cuts (trimStart left) (trimEnd right) := by
  have hleft : trimStart left <:+ left := List.dropWhile_suffix _
  cases relation with
  | sameType =>
    obtain ⟨lead, hlead⟩ := hleft
    have hshorter : trimStart left ++ ['='] <:+ left ++ ['='] := ⟨lead, by rw [← List.append_assoc, hlead]⟩
    exact fun hin => h (hin.trans hshorter.isInfix)
  | conformance =>
    obtain ⟨hnone, hbefore, htop⟩ := h
    rw [isInfix_append_cons (by decide), not_or] at hnone
    refine ⟨?_, ?_, ?_⟩
    · rw [isInfix_append_cons (by decide), not_or]
      exact ⟨fun hin => hnone.1 (hin.trans hleft.isInfix),
        fun hin => hnone.2 (hin.trans (trimEnd_isPrefix right).isInfix)⟩
    · exact (cutTop_eq_none_congr (by decide) (trim_trimStart left)).mpr hbefore
    · rw [Scan.isTop_after_congr (trim_trimStart left)]
      exact htop

theorem trim_sides (left right : List Char) (relation : Relation) :
    trim (left ++ (relation.sign ++ right)) = trimStart left ++ (relation.sign ++ trimEnd right) := by
  cases relation <;> exact trim_append_link (by decide) (by decide) left right

theorem ofClause?_trim (h : ofClause? clause = some r) : ofClause? (trim clause) = some r := by
  obtain ⟨left, right, rfl, hcuts, heq⟩ := ofClause?_eq_some_iff.mp h
  rw [trim_sides, ofClause?_of_cuts (cuts_trim hcuts),
    between_congr (trim_trimStart left) (trim_trimEnd right), ← heq]

/-- A rendered clause is cut where the clause was. -/
theorem cuts_spaced {relation : Relation} (h : relation.Cuts left right) :
    ∃ left' right', trim left ++ (relation.spacedSign ++ trim right) = left' ++ (relation.sign ++ right') ∧
      relation.Cuts left' right' ∧ trim left' = trim left ∧ trim right' = trim right := by
  have hright : trim (' ' :: trim right) = trim right :=
    (trim_space_cons (trim right)).trans (trimmed_trim right).trim
  cases relation with
  | sameType =>
    have hleft : trim (trim left ++ [' ']) = trim left :=
      (trim_append_blank isBlank_of_mem_space (trim left)).trans (trimmed_trim left).trim
    refine ⟨trim left ++ [' '], ' ' :: trim right, by simp [Relation.spacedSign, Relation.sign], ?_, hleft, hright⟩
    intro hin
    rw [List.append_assoc] at hin
    rcases (isInfix_append_cons (by decide)).mp hin with hin | hin
    · exact h ((hin.trans (trim_isInfix left)).trans (List.prefix_append left ['=']).isInfix)
    · exact absurd hin.length_le (by decide)
  | conformance =>
    obtain ⟨hnone, hbefore, htop⟩ := h
    rw [isInfix_append_cons (by decide), not_or] at hnone
    have hleft : trim (trim left) = trim left := (trimmed_trim left).trim
    refine ⟨trim left, ' ' :: trim right, rfl, ⟨fun hin => ?_, ?_, ?_⟩, hleft, hright⟩
    · rcases (isInfix_append_cons (by decide)).mp hin with hin | hin
      · exact hnone.1 (hin.trans (trim_isInfix left))
      · have hspaced : ['=', '='] <:+: [] ++ ' ' :: trim right := hin
        rcases (isInfix_append_cons (by decide)).mp hspaced with hin | hin
        · exact absurd hin.length_le (by decide)
        · exact hnone.2 (hin.trans (trim_isInfix right))
    · exact (cutTop_eq_none_congr (by decide) hleft).mpr hbefore
    · rw [Scan.isTop_after_congr hleft]
      exact htop

/-- A requirement that was read from a clause is read again from what it renders to. -/
theorem ofClause?_render (h : ofClause? clause = some r) : ofClause? (trim r.render.toList) = some r := by
  obtain ⟨left, right, rfl, hcuts, heq⟩ := ofClause?_eq_some_iff.mp h
  obtain ⟨left', right', hrendered, hcuts', hleft, hright⟩ := cuts_spaced hcuts
  have hagain := ofClause?_trim (ofClause?_of_cuts hcuts')
  rw [between_congr hleft hright, ← heq, ← hrendered, ← toList_render, ← heq] at hagain
  exact hagain

theorem cutTop_render (h : ofClause? clause = some r) (hclause : cutTop ',' clause = none) :
    cutTop ',' r.render.toList = none := by
  obtain ⟨left, right, rfl, -, heq⟩ := ofClause?_eq_some_iff.mp h
  have hcomma : ',' ∉ r.relation.spacedSign := by cases r.relation <;> decide
  rw [heq, toList_render]
  have hleft : cutTop ',' (trim left) = none :=
    (cutTopFrom_trim (by decide) Scan.settled_start left).mpr (cutTopFrom_append_eq_none.mp hclause).1
  exact cutTop_spaced r.relation.sign_plain r.relation.spacedSign_plain (Scan.settled_start.level_after_trim left) right
    (by decide) hcomma hleft hclause

theorem isTop_after_render (h : ofClause? clause = some r) :
    (Scan.start.after r.render.toList).isTop = (Scan.start.after clause).isTop := by
  obtain ⟨left, right, rfl, -, heq⟩ := ofClause?_eq_some_iff.mp h
  rw [heq, toList_render]
  exact Scan.isTop_eq (Scan.level_after_spaced r.relation.sign_plain r.relation.spacedSign_plain
    (Scan.settled_start.level_after_trim left) right)

/-! ### Lists of clauses -/

theorem apart_render {clauses : List (List Char)} (h : Apart ',' clauses) :
    Apart ',' ((clauses.filterMap ofClause?).map fun r => r.render.toList) where
  whole piece hpiece := by
    obtain ⟨r, hr, rfl⟩ := List.mem_map.mp hpiece
    obtain ⟨clause, hclause, hread⟩ := List.mem_filterMap.mp hr
    exact cutTop_render hread (h.whole clause hclause)
  ends := by
    refine List.pairwise_map.mpr (h.ends.filterMap ofClause? ?_)
    intro clause _ htop r hread _ _
    rw [isTop_after_render hread]
    exact htop

theorem toList_renderAll {requirements : List Requirement} (h : requirements ≠ []) :
    (renderAll requirements).toList =
      ' ' :: ("where".toList ++ ' ' :: [',', ' '].intercalate (requirements.map fun r => r.render.toList)) := by
  simp [renderAll, h, Function.comp_def]

/-- What is read from a rendered list of requirements is what stands between its commas. -/
theorem parseAll_toList_renderAll {requirements : List Requirement} (h : requirements ≠ []) :
    parseAll (renderAll requirements).toList =
      (splitTop ',' ([',', ' '].intercalate (requirements.map fun r => r.render.toList))).filterMap ofClause? := by
  rw [toList_renderAll h, parseAll]
  generalize [',', ' '].intercalate (requirements.map fun r => r.render.toList) = joined
  have hword : Trimmed "where".toList := by decide
  have htrim : trim (' ' :: ("where".toList ++ ' ' :: joined)) = "where".toList ++ trimEnd (' ' :: joined) := by
    have hstart : StartsInText ("where".toList ++ ' ' :: joined) := fun c hc => Option.some.inj hc ▸ by decide
    have hlead := trimStart_append isBlank_of_mem_space ("where".toList ++ ' ' :: joined)
    rw [hstart.trimStart] at hlead
    exact (congrArg trimEnd hlead).trans (hword.stop.trimEnd_append _)
  have hsame : trim (trimEnd (' ' :: joined)) = trim joined :=
    (trim_trimEnd _).trans (trim_space_cons joined)
  rw [htrim, dropStart_append, splitTop_congr (by decide) hsame]

theorem filterMap_ofClause?_render {requirements : List Requirement}
    (h : ∀ r ∈ requirements, ofClause? (trim r.render.toList) = some r) :
    (((requirements.map fun r => r.render.toList).map trim).filter (!·.isEmpty)).filterMap ofClause? =
      requirements := by
  have hkept : ∀ piece ∈ (requirements.map fun r => r.render.toList).map trim, (!piece.isEmpty) = true := by
    intro piece hpiece
    rw [List.map_map] at hpiece
    obtain ⟨r, hr, rfl⟩ := List.mem_map.mp hpiece
    have hread := h r hr
    -- An empty clause is no requirement.
    cases hempty : trim r.render.toList with
    | nil => rw [hempty] at hread; cases hread
    | cons c rest => simp [hempty]
  rw [List.filter_eq_self.mpr hkept, List.map_map]
  calc (requirements.map (trim ∘ fun r => r.render.toList)).filterMap ofClause?
      = (requirements.map fun r => ofClause? (trim r.render.toList)).filterMap id := by
        rw [List.filterMap_map, List.filterMap_map]
        rfl
    _ = requirements := by
        rw [List.map_congr_left h, List.filterMap_map]
        exact List.filterMap_some

/-- Requirements are read again from the text of their clauses after `where`, whatever text they were read from. -/
theorem parseAll_renderAll (text : List Char) : parseAll (renderAll (parseAll text)).toList = parseAll text := by
  by_cases hnil : parseAll text = []
  · rw [hnil]
    rfl
  · have hclauses : Apart ',' _ := apart_splitTop (by decide) (dropStart "where".toList (trim text))
    have hapart : Apart ',' ((parseAll text).map fun r => r.render.toList) := apart_render hclauses
    rw [parseAll_toList_renderAll hnil, splitTop_intercalate (by decide) hapart]
    refine filterMap_ofClause?_render fun r hr => ?_
    obtain ⟨clause, -, hread⟩ := List.mem_filterMap.mp hr
    exact ofClause?_render hread

end Requirement

end DocIndex
