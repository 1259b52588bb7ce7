import DocIndex.Declaration.Attribute
import DocIndex.Proofs.Text.Nesting

/-! # Attributes and modifiers read again

Both are cut at the first opening and the last closing parenthesis, and what stands around and between them is
trimmed, so both render to a text with the same cut (`parenthesized?_eq_some_iff`). An attribute without a name and
arguments renders to a text that is no attribute; every other attribute, and every modifier, is read again from what
it renders to (`marks_reread`). -/

namespace DocIndex

open Text

/-! ### Parentheses -/

namespace Text

/-- The text before the first opening parenthesis, and the text between it and the last closing one. -/
def parenthesized? (text : List Char) : Option (List Char × List Char) :=
  (cutAt '(' text).bind fun parts => (cutAtLast ')' parts.2).map fun ends => (parts.1, ends.1)

theorem parenthesized?_eq_some_iff {text name inner : List Char} :
    parenthesized? text = some (name, inner) ↔
      ∃ tail, text = name ++ '(' :: (inner ++ ')' :: tail) ∧ '(' ∉ name ∧ ')' ∉ tail := by
  constructor
  · intro h
    obtain ⟨⟨name, rest⟩, hopening, h⟩ := Option.bind_eq_some_iff.mp h
    obtain ⟨⟨inner, tail⟩, hclosing, heq⟩ := Option.map_eq_some_iff.mp h
    obtain ⟨rfl, rfl⟩ := Prod.mk.inj heq
    obtain ⟨rfl, hname⟩ := cutAt_eq_some_iff.mp hopening
    obtain ⟨rfl, htail⟩ := cutAtLast_eq_some_iff.mp hclosing
    exact ⟨tail, rfl, hname, htail⟩
  · rintro ⟨tail, rfl, hname, htail⟩
    rw [parenthesized?, cutAt_append hname, Option.bind_some, cutAtLast_eq_some_iff.mpr ⟨rfl, htail⟩]
    rfl

theorem parenthesized?_append {name : List Char} (h : '(' ∉ name) (inner : List Char) :
    parenthesized? (name ++ '(' :: (inner ++ [')'])) = some (name, inner) :=
  parenthesized?_eq_some_iff.mpr ⟨[], rfl, h, List.not_mem_nil⟩

theorem parenthesized?_eq_none {text : List Char} (h : '(' ∉ text) : parenthesized? text = none := by
  cases hcut : parenthesized? text with
  | none => rfl
  | some parts =>
    obtain ⟨tail, rfl, -⟩ := parenthesized?_eq_some_iff.mp hcut
    exact absurd (List.mem_append_right _ List.mem_cons_self) h

theorem trimmed_parenthesized {name : List Char} (h : Trimmed name) (inner : List Char) :
    Trimmed (name ++ '(' :: (inner ++ [')'])) := by
  refine ⟨fun c hc => ?_, fun c hc => ?_⟩
  · cases name with
    | nil =>
      obtain rfl := Option.some.inj hc
      decide
    | cons first rest => exact h.start c hc
  · have hlast : (name ++ '(' :: (inner ++ [')'])).getLast? = some ')' := by
      rw [← List.cons_append, ← List.append_assoc, List.getLast?_concat]
    obtain rfl := Option.some.inj (hlast.symm.trans hc)
    decide

theorem not_mem_trim {c : Char} {text : List Char} (h : c ∉ text) : c ∉ trim text := fun hmem => by
  obtain ⟨lead, trail, -, -, heq⟩ := exists_trim text
  exact h (heq ▸ List.mem_append_right _ (List.mem_append_left _ hmem))

end Text

/-! ### Attributes -/

namespace Attribute

theorem ofBody_of_some {body name inner : List Char} (h : parenthesized? body = some (name, inner)) :
    ofBody body = ⟨String.ofList (trim name), (splitTop ',' inner).map String.ofList⟩ := by
  obtain ⟨tail, rfl, hname, htail⟩ := parenthesized?_eq_some_iff.mp h
  have hclosing : cutAtLast ')' (inner ++ ')' :: tail) = some (inner, tail) := cutAtLast_eq_some_iff.mpr ⟨rfl, htail⟩
  simp only [ofBody, cutAt_append hname, hclosing]

theorem ofBody_of_none {body : List Char} (h : parenthesized? body = none) :
    ofBody body = ⟨String.ofList body, []⟩ := by
  rw [ofBody]
  split
  next name rest hopening =>
    rw [parenthesized?, hopening, Option.bind_some, Option.map_eq_none_iff] at h
    rw [h]
  next => rfl

theorem parse?_cons {body : List Char} (h : Trimmed body) (hne : body ≠ []) :
    parse? ('@' :: body) = some (ofBody body) := by
  have htrim : trim ('@' :: body) = '@' :: body :=
    Trimmed.trim ⟨fun c hc => Option.some.inj hc ▸ by decide, h.stop.append hne ['@']⟩
  rw [parse?, htrim]
  simp [h.start.trimStart, hne]

theorem exists_of_parse? {text : List Char} {a : Attribute} (h : parse? text = some a) :
    ∃ body, Trimmed body ∧ body ≠ [] ∧ a = ofBody body := by
  rw [parse?] at h
  split at h
  next rest htext =>
    have hstop : EndsInText rest := by
      have htrimmed := trimmed_trim text
      rw [htext] at htrimmed
      exact htrimmed.stop.of_append ['@']
    dsimp only at h
    split at h
    next => cases h
    next hne =>
      refine ⟨trimStart rest, ⟨startsInText_trimStart rest, hstop.trimStart⟩, ?_, (Option.some.inj h).symm⟩
      simpa using hne
  next => cases h

/-- The cases of an attribute that was read: a text without parentheses, a name with none or nothing between them,
and a name with arguments. -/
theorem cases_of_parse? {text : List Char} {a : Attribute} (h : parse? text = some a) :
    (∃ body, Trimmed body ∧ body ≠ [] ∧ parenthesized? body = none ∧ a = ⟨String.ofList body, []⟩) ∨
      ∃ name arguments, Trimmed name ∧ '(' ∉ name ∧ Apart ',' arguments ∧
        (∀ argument ∈ arguments, Trimmed argument ∧ argument ≠ []) ∧
        a = ⟨String.ofList name, arguments.map String.ofList⟩ := by
  obtain ⟨body, htrimmed, hne, rfl⟩ := exists_of_parse? h
  cases hcut : parenthesized? body with
  | none => exact .inl ⟨body, htrimmed, hne, hcut, ofBody_of_none hcut⟩
  | some parts =>
    obtain ⟨name, inner⟩ := parts
    obtain ⟨tail, -, hname, -⟩ := parenthesized?_eq_some_iff.mp hcut
    exact .inr ⟨trim name, splitTop ',' inner, trimmed_trim name, not_mem_trim hname, apart_splitTop (by decide) inner,
      fun argument => trimmed_of_mem_splitTop, ofBody_of_some hcut⟩

theorem toList_render_bare (name : List Char) : (render ⟨String.ofList name, []⟩).toList = '@' :: name := by
  simp [render]

theorem toList_render_called (name : List Char) {arguments : List (List Char)} (h : arguments ≠ []) :
    (render ⟨String.ofList name, arguments.map String.ofList⟩).toList =
      '@' :: (name ++ '(' :: ([',', ' '].intercalate arguments ++ [')'])) := by
  simp [render, h, Function.comp_def]

/-- Every attribute that was read is read again from what it renders to, unless that is a single `@`. -/
theorem parse?_render {text : List Char} {a : Attribute} (h : parse? text = some a) (hrender : a.render ≠ "@") :
    parse? a.render.toList = some a := by
  obtain ⟨body, htrimmed, hne, hcut, rfl⟩ | ⟨name, arguments, htrimmed, hname, hapart, harguments, rfl⟩ :=
    cases_of_parse? h
  · rw [toList_render_bare, parse?_cons htrimmed hne, ofBody_of_none hcut]
  · by_cases hsome : arguments = []
    · subst hsome
      have hne : name ≠ [] := fun hnil => hrender (by rw [hnil]; rfl)
      have hbare := toList_render_bare name
      rw [List.map_nil, hbare, parse?_cons htrimmed hne, ofBody_of_none (parenthesized?_eq_none hname)]
    · have hcalled := parenthesized?_append hname ([',', ' '].intercalate arguments)
      rw [toList_render_called name hsome, parse?_cons (trimmed_parenthesized htrimmed _) (by simp),
        ofBody_of_some hcalled, htrimmed.trim, splitTop_intercalate_of_trimmed (by decide) hapart harguments]

end Attribute

/-! ### Modifiers -/

namespace Modifier

theorem parse_of_some {text name inner : List Char} (h : parenthesized? (trim text) = some (name, inner)) :
    parse text = ⟨String.ofList (trim name), some (String.ofList (trim inner))⟩ := by
  obtain ⟨tail, htext, hname, htail⟩ := parenthesized?_eq_some_iff.mp h
  have hclosing : cutAtLast ')' (inner ++ ')' :: tail) = some (inner, tail) := cutAtLast_eq_some_iff.mpr ⟨rfl, htail⟩
  simp only [parse, htext, cutAt_append hname, hclosing]

theorem parse_of_none {text : List Char} (h : parenthesized? (trim text) = none) :
    parse text = plain (String.ofList (trim text)) := by
  unfold parse
  dsimp only
  split
  next name rest hopening =>
    rw [parenthesized?, hopening, Option.bind_some, Option.map_eq_none_iff] at h
    rw [h]
  next => rfl

theorem parse_render (text : List Char) : parse (parse text).render.toList = parse text := by
  cases hcut : parenthesized? (trim text) with
  | none =>
    have htrim := (trimmed_trim text).trim
    rw [parse_of_none hcut]
    simp only [plain, render, String.toList_ofList]
    rw [parse_of_none (htrim.symm ▸ hcut), htrim]
    rfl
  | some parts =>
    obtain ⟨name, inner⟩ := parts
    obtain ⟨tail, -, hname, -⟩ := parenthesized?_eq_some_iff.mp hcut
    have hrendered : (render ⟨String.ofList (trim name), some (String.ofList (trim inner))⟩).toList =
        trim name ++ '(' :: (trim inner ++ [')']) := by
      simp [render]
    have htrim := (trimmed_parenthesized (trimmed_trim name) (trim inner)).trim
    have hagain := parenthesized?_append (not_mem_trim hname) (trim inner)
    rw [parse_of_some hcut, hrendered, parse_of_some (htrim.symm ▸ hagain), (trimmed_trim name).trim,
      (trimmed_trim inner).trim]

end Modifier

/-! ### Both -/

/-- An attribute that was read is read again from what it renders to, whatever the text it was read from, unless it
has neither a name nor arguments and renders to a single `@`. A modifier is always read again. -/
theorem marks_reread :
    (∀ text a, Attribute.parse? text = some a → (Attribute.parse? a.render.toList = some a ↔ a.render ≠ "@")) ∧
      ∀ text, Modifier.parse (Modifier.parse text).render.toList = Modifier.parse text := by
  refine ⟨fun text a h => ⟨fun hagain hrender => ?_, Attribute.parse?_render h⟩, Modifier.parse_render⟩
  rw [hrender] at hagain
  cases hagain

/-- A literal that is never closed, an empty argument, and text after the closing parenthesis. -/
theorem marks_reread_unbalanced :
    let a : Attribute := ⟨"f", ["x", "\"a, b"]⟩
    Attribute.parse? "@ f( x ,,\"a, b) c".toList = some a ∧ a.render ≠ "@" ∧
      Attribute.parse? a.render.toList = some a := by
  intro a
  have hread : Attribute.parse? "@ f( x ,,\"a, b) c".toList = some a := by decide +kernel
  have hrender : a.render ≠ "@" := by decide +kernel
  exact ⟨hread, hrender, (marks_reread.1 _ a hread).mpr hrender⟩

end DocIndex
