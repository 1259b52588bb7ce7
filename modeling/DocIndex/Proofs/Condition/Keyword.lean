import DocIndex.Condition.Directive
import DocIndex.Proofs.Text.Trimmed

/-! # Keywords of directives

The keyword of a directive is the whole word after its `#` (`Keyword.word_of_read?`). No two keywords are spelled alike, so
the order in which they are tried does not matter (`parseInOrder?_eq_some_iff`). What a branch renders to is read as
the branch again exactly if its condition is one that can be read (`parse?_render_iff`). -/

namespace DocIndex

open Text

namespace Directive

/-- The words that start a directive. -/
inductive Keyword where
  | ifTrue
  | elseIf
  | otherwise
  | endIf
  | sourceLocation
  deriving DecidableEq, Repr

/-- No word goes on at the start of the text. -/
def EndsWord (text : List Char) : Prop :=
  ∀ c ∈ text.head?, isWord c = false

theorem after?_eq_some_iff {keyword : String} {line rest : List Char} :
    after? keyword line = some rest ↔ line = '#' :: (keyword.toList ++ rest) ∧ EndsWord rest := by
  have hlead : ∀ more, ('#' :: keyword.toList).isPrefixOf? line = some more ↔ line = '#' :: (keyword.toList ++ more) :=
    fun more => List.isPrefixOf?_eq_some_iff_append_eq.trans eq_comm
  rw [after?]
  constructor
  · intro h
    split at h
    next hline =>
      obtain rfl := Option.some.inj h
      exact ⟨(hlead []).mp hline, fun c hc => by cases hc⟩
    next c more hline =>
      split at h
      next => cases h
      next hc =>
        obtain rfl := Option.some.inj h
        exact ⟨(hlead (c :: more)).mp hline, fun d hd => Option.some.inj hd ▸ Bool.eq_false_iff.mpr hc⟩
    next => cases h
  · rintro ⟨hline, hend⟩
    rw [(hlead rest).mpr hline]
    cases rest with
    | nil => rfl
    | cons c more =>
      have hc : isWord c = false := hend c rfl
      simp [hc]

namespace Keyword

def spelling : Keyword → String
  | ifTrue => "if"
  | elseIf => "elseif"
  | otherwise => "else"
  | endIf => "endif"
  | sourceLocation => "sourceLocation"

/-- The directive that the keyword starts. Only two of them have a condition. -/
def directive (condition : String) : Keyword → Directive
  | ifTrue => .ifTrue condition
  | elseIf => .elseIf condition
  | otherwise => .otherwise
  | endIf => .endIf
  | sourceLocation => .other

/-- What a text says if no other keyword is tried. -/
def read? (keyword : Keyword) (text : List Char) : Option Directive :=
  if (trim text).contains '\n' then none
  else (after? keyword.spelling (trim text)).map fun rest => keyword.directive (conditionOf rest)

def all : List Keyword :=
  [ifTrue, elseIf, otherwise, endIf, sourceLocation]

theorem mem_all (keyword : Keyword) : keyword ∈ all := by
  cases keyword <;> simp [all]

theorem isWord_of_mem_spelling (keyword : Keyword) : ∀ c ∈ keyword.spelling.toList, isWord c = true := by
  have hall : keyword.spelling.toList.all isWord = true := by cases keyword <;> decide
  exact List.all_eq_true.mp hall

theorem eq_of_spelling {first second : Keyword} (h : first.spelling.toList = second.spelling.toList) :
    first = second := by
  cases first <;> cases second <;> simp [spelling] at h <;> rfl

/-- Only one keyword goes on as another one. -/
theorem eq_of_spelling_isPrefix {first second : Keyword} {c : Char}
    (h : first.spelling.toList ++ [c] <+: second.spelling.toList) : first = otherwise ∧ second = elseIf := by
  cases first <;> cases second <;> simp [spelling] at h
  exact ⟨rfl, rfl⟩

theorem read?_eq_some_iff {keyword : Keyword} {text : List Char} {directive : Directive} :
    keyword.read? text = some directive ↔
      ∃ rest, trim text = '#' :: (keyword.spelling.toList ++ rest) ∧ EndsWord rest ∧ '\n' ∉ trim text ∧
        keyword.directive (conditionOf rest) = directive := by
  rw [read?]
  by_cases hline : '\n' ∈ trim text
  · simp [hline]
  · simp only [List.contains_eq_mem, hline, decide_false, Bool.false_eq_true, if_false, Option.map_eq_some_iff,
      after?_eq_some_iff, not_false_eq_true, true_and, and_assoc]

/-- The keyword is the whole word after the sign. -/
theorem word_of_read? {keyword : Keyword} {text : List Char} {directive : Directive}
    (h : keyword.read? text = some directive) : (trim text).tail.takeWhile isWord = keyword.spelling.toList := by
  obtain ⟨rest, hline, hend, -, -⟩ := read?_eq_some_iff.mp h
  have hrest : rest.takeWhile isWord = [] := by
    cases rest with
    | nil => rfl
    | cons c more => rw [List.takeWhile_cons, hend c rfl]; rfl
  rw [hline, List.tail_cons, List.takeWhile_append_of_pos keyword.isWord_of_mem_spelling, hrest, List.append_nil]

theorem eq_of_read? {first second : Keyword} {text : List Char} (hfirst : (first.read? text).isSome)
    (hsecond : (second.read? text).isSome) : first = second := by
  obtain ⟨left, hleft⟩ := Option.isSome_iff_exists.mp hfirst
  obtain ⟨right, hright⟩ := Option.isSome_iff_exists.mp hsecond
  exact eq_of_spelling ((word_of_read? hleft).symm.trans (word_of_read? hright))

end Keyword

/-! ### The order of the keywords -/

/-- Reads the text of a directive by the first keyword in the given order that it has. -/
def parseInOrder? (order : List Keyword) (text : List Char) : Option Directive :=
  order.findSome? (·.read? text)

theorem parseInOrder?_eq_some_iff {order : List Keyword} (h : ∀ keyword, keyword ∈ order) {text : List Char}
    {directive : Directive} :
    parseInOrder? order text = some directive ↔ ∃ keyword : Keyword, keyword.read? text = some directive := by
  constructor
  · intro hread
    obtain ⟨keyword, -, hkeyword⟩ := List.exists_of_findSome?_eq_some hread
    exact ⟨keyword, hkeyword⟩
  · rintro ⟨keyword, hkeyword⟩
    have hsome : (parseInOrder? order text).isSome :=
      List.findSome?_isSome_iff.mpr ⟨keyword, h keyword, Option.isSome_of_eq_some hkeyword⟩
    obtain ⟨found, hfound⟩ := Option.isSome_iff_exists.mp hsome
    obtain ⟨other, -, hother⟩ := List.exists_of_findSome?_eq_some hfound
    -- The keyword that comes first is the only one that the text has.
    obtain rfl := Keyword.eq_of_read? (Option.isSome_of_eq_some hother) (Option.isSome_of_eq_some hkeyword)
    rw [hfound, ← hother, hkeyword]

theorem parse?_eq_parseInOrder? (text : List Char) : parse? text = parseInOrder? Keyword.all text := by
  rw [parse?, parseInOrder?, Keyword.all]
  simp only [List.findSome?_cons, List.findSome?_nil, Keyword.read?, Keyword.spelling]
  split
  next => rfl
  next =>
    cases after? "if" (trim text) with
    | some rest => rfl
    | none =>
      cases after? "elseif" (trim text) with
      | some rest => rfl
      | none =>
        cases after? "else" (trim text) with
        | some rest => rfl
        | none =>
          cases after? "endif" (trim text) with
          | some rest => rfl
          | none => cases after? "sourceLocation" (trim text) <;> rfl

theorem parse?_eq_some_iff {text : List Char} {directive : Directive} :
    parse? text = some directive ↔ ∃ keyword : Keyword, keyword.read? text = some directive := by
  rw [parse?_eq_parseInOrder?, parseInOrder?_eq_some_iff Keyword.mem_all]

/-- The order in which the keywords are tried does not matter. -/
theorem parseInOrder?_eq_parse? {order : List Keyword} (h : ∀ keyword, keyword ∈ order) (text : List Char) :
    parseInOrder? order text = parse? text :=
  Option.ext fun _ => (parseInOrder?_eq_some_iff h).trans parse?_eq_some_iff.symm

/-- A keyword in the middle of a word is none. What is read there is the one keyword that goes on as another. -/
theorem parse?_of_isWord {keyword : Keyword} {text : List Char} {c : Char} {rest : List Char}
    (hline : trim text = '#' :: (keyword.spelling.toList ++ c :: rest)) (hc : isWord c = true) :
    keyword.read? text = none ∧
      ∀ directive, parse? text = some directive →
        keyword = .otherwise ∧ ∃ condition, directive = .elseIf condition := by
  have hlonger : ∀ {other : Keyword} {directive : Directive}, other.read? text = some directive →
      keyword.spelling.toList ++ [c] <+: other.spelling.toList := by
    intro other _ hother
    have hword := Keyword.word_of_read? hother
    rw [hline, List.tail_cons, List.takeWhile_append_of_pos keyword.isWord_of_mem_spelling,
      List.takeWhile_cons_of_pos hc] at hword
    exact ⟨rest.takeWhile isWord, by rw [← hword, List.append_assoc]; rfl⟩
  constructor
  · rw [Option.eq_none_iff_forall_ne_some]
    intro _ hread
    obtain ⟨heq, heq'⟩ := Keyword.eq_of_spelling_isPrefix (hlonger hread)
    rw [heq] at heq'
    cases heq'
  · intro directive hread
    obtain ⟨other, hother⟩ := parse?_eq_some_iff.mp hread
    obtain ⟨hkeyword, rfl⟩ := Keyword.eq_of_spelling_isPrefix (hlonger hother)
    obtain ⟨after, -, -, -, rfl⟩ := Keyword.read?_eq_some_iff.mp hother
    exact ⟨hkeyword, conditionOf after, rfl⟩

/-! ### Conditions -/

/-- The text of a condition: on one line, without blanks at its ends and without a comment. -/
structure IsCondition (condition : List Char) : Prop where
  trimmed : Trimmed condition
  single : '\n' ∉ condition
  uncommented : ¬['/', '/'] <:+: condition

theorem conditionOf_of_not_isInfix {rest : List Char} (h : ¬['/', '/'] <:+: rest) :
    conditionOf rest = String.ofList (trim rest) := by
  rw [conditionOf, cut_eq_none_iff.mpr h]

theorem isCondition_conditionOf {rest : List Char} (h : '\n' ∉ rest) : IsCondition (conditionOf rest).toList := by
  -- What stands before the comment has none.
  have hbefore : ∃ before, before <+: rest ∧ ¬['/', '/'] <:+: before ∧ (conditionOf rest).toList = trim before := by
    cases hcut : cut ['/', '/'] rest with
    | none =>
      have hplain := cut_eq_none_iff.mp hcut
      exact ⟨rest, List.prefix_rfl, hplain, by rw [conditionOf_of_not_isInfix hplain, String.toList_ofList]⟩
    | some parts =>
      obtain ⟨before, after⟩ := parts
      obtain ⟨rfl, hfirst⟩ := (cut_eq_some_iff (by simp)).mp hcut
      refine ⟨before, List.prefix_append before _, fun hin => hfirst (hin.trans ⟨[], _, rfl⟩), ?_⟩
      rw [conditionOf, hcut, String.toList_ofList]
  obtain ⟨before, hrest, hplain, hcondition⟩ := hbefore
  rw [hcondition]
  exact ⟨trimmed_trim before, fun hmem => h (hrest.subset ((trim_isInfix before).subset hmem)),
    fun hin => hplain (hin.trans (trim_isInfix before))⟩

theorem isCondition_of_read? {keyword : Keyword} {text : List Char} {directive : Directive}
    (h : keyword.read? text = some directive) :
    ∃ condition : String, keyword.directive condition = directive ∧ IsCondition condition.toList := by
  obtain ⟨rest, hline, -, hsingle, hdirective⟩ := Keyword.read?_eq_some_iff.mp h
  have hrest : '\n' ∉ rest := fun hmem => hsingle (hline ▸ by simp [hmem])
  exact ⟨conditionOf rest, hdirective, isCondition_conditionOf hrest⟩

/-- A condition is read as it is behind a keyword and a space. -/
theorem parse?_append_space {condition : String} (h : IsCondition condition.toList) (keyword : Keyword) :
    parse? ('#' :: (keyword.spelling.toList ++ ' ' :: condition.toList)) = some (keyword.directive condition) := by
  have hlead : Trimmed ('#' :: keyword.spelling.toList) := by cases keyword <;> decide
  have hline : trim ('#' :: (keyword.spelling.toList ++ ' ' :: condition.toList)) =
      '#' :: (keyword.spelling.toList ++ trimEnd (' ' :: condition.toList)) :=
    trim_append_link (List.cons_ne_nil _ _) hlead [] (' ' :: condition.toList)
  have hrest : trimEnd (' ' :: condition.toList) <+: ' ' :: condition.toList := trimEnd_isPrefix _
  have hsingle : '\n' ∉ trimEnd (' ' :: condition.toList) := fun hmem => by
    simpa [h.single] using hrest.subset hmem
  have hplain : ¬['/', '/'] <:+: trimEnd (' ' :: condition.toList) := fun hin => by
    rcases List.infix_cons_iff.mp (hin.trans hrest.isInfix) with hstart | hlater
    · simp at hstart
    · exact h.uncommented hlater
  refine parse?_eq_some_iff.mpr ⟨keyword, Keyword.read?_eq_some_iff.mpr ⟨_, hline, ?_, ?_, ?_⟩⟩
  · intro c hc
    cases hafter : trimEnd (' ' :: condition.toList) with
    | nil => rw [hafter] at hc; cases hc
    | cons d more =>
      rw [hafter] at hc hrest
      obtain rfl := Option.some.inj hc
      rw [(List.cons_prefix_cons.mp hrest).1]
      decide
  · have hkeyword : '\n' ∉ keyword.spelling.toList := fun hmem =>
      absurd (keyword.isWord_of_mem_spelling _ hmem) (by decide)
    rw [hline]
    simp [hkeyword, hsingle]
  · rw [conditionOf_of_not_isInfix hplain, trim_trimEnd, trim_space_cons, h.trimmed.trim, String.ofList_toList]

end Directive

namespace Branch

open Directive

variable {branch : Branch}

theorem isCondition_of_parse? {text : List Char} (h : parse? text = some branch.directive) :
    ∀ condition ∈ branch.condition?, IsCondition condition.toList := by
  obtain ⟨keyword, hread⟩ := parse?_eq_some_iff.mp h
  obtain ⟨condition, hdirective, hcondition⟩ := isCondition_of_read? hread
  cases branch with
  | ifTrue guard | elseIf guard =>
    intro other hother
    obtain rfl := Option.some.inj hother
    cases keyword <;> cases hdirective
    exact hcondition
  | otherwise => intro other hother; cases hother

/-- A branch is read from what it renders to exactly if its condition is one. -/
theorem parse?_render_iff : parse? branch.render.toList = some branch.directive ↔
    ∀ condition ∈ branch.condition?, IsCondition condition.toList := by
  refine ⟨isCondition_of_parse?, fun h => ?_⟩
  cases branch with
  | ifTrue condition =>
    have htext : (ifTrue condition).render.toList = '#' :: ("if".toList ++ ' ' :: condition.toList) := by
      simp [render, condition?, Branch.keyword]
    rw [htext]
    exact parse?_append_space (h condition rfl) .ifTrue
  | elseIf condition =>
    have htext : (elseIf condition).render.toList = '#' :: ("elseif".toList ++ ' ' :: condition.toList) := by
      simp [render, condition?, Branch.keyword]
    rw [htext]
    exact parse?_append_space (h condition rfl) .elseIf
  | otherwise => decide

end Branch

namespace Directive

/-- What is read as a branch is read as the same branch from its rendering, and its condition stands on one line, has
no blanks at its ends and no comment; all branches with such a condition are read so. No text has two keywords, so they
may be tried in any order: `else` is not read in `#elseif`, and no keyword is read where a word goes on. -/
theorem parse?_stable (text : List Char) :
    (∀ branch : Branch, parse? text = some branch.directive →
      parse? branch.render.toList = some branch.directive ∧
        ∀ condition ∈ branch.condition?,
          ¬['/', '/'] <:+: condition.toList ∧ '\n' ∉ condition.toList ∧ Trimmed condition.toList) ∧
      (∀ branch : Branch, (∀ condition ∈ branch.condition?, IsCondition condition.toList) →
        parse? branch.render.toList = some branch.directive) ∧
      (∀ first second : Keyword, (first.read? text).isSome → (second.read? text).isSome → first = second) ∧
      (∀ order : List Keyword, (∀ keyword, keyword ∈ order) → parseInOrder? order text = parse? text) ∧
      ("#elseif".toList <+: trim text → parse? text ≠ some .otherwise) ∧
      ∀ (keyword : Keyword) (c : Char) (rest : List Char),
        trim text = '#' :: (keyword.spelling.toList ++ c :: rest) → isWord c = true →
        keyword.read? text = none ∧
          ∀ directive, parse? text = some directive →
            keyword = .otherwise ∧ ∃ condition, directive = .elseIf condition := by
  refine ⟨fun branch h => ?_, fun branch => Branch.parse?_render_iff.mpr, fun first second => Keyword.eq_of_read?,
    fun order h => ?_, ?_, ?_⟩
  · have hcondition := Branch.isCondition_of_parse? h
    refine ⟨Branch.parse?_render_iff.mpr hcondition, fun condition hmem => ?_⟩
    exact ⟨(hcondition condition hmem).uncommented, (hcondition condition hmem).single,
      (hcondition condition hmem).trimmed⟩
  · exact parseInOrder?_eq_parse? h text
  · rintro ⟨rest, hrest⟩ hread
    have hline : trim text = '#' :: (Keyword.otherwise.spelling.toList ++ 'i' :: 'f' :: rest) := hrest.symm
    obtain ⟨-, condition, hother⟩ := (parse?_of_isWord hline (by decide)).2 _ hread
    cases hother
  · exact fun keyword c rest hline hc => parse?_of_isWord hline hc

/-- A directive behind a wide blank, with a slash in its condition and slashes right after it. -/
theorem parse?_stable_elseif :
    let text := "\u3000#elseif\ta / b/// c\n".toList
    parse? text = some (.elseIf "a / b") ∧ parse? "#elseif a / b".toList = some (.elseIf "a / b") ∧
      Trimmed "a / b".toList ∧ parseInOrder? Keyword.all.reverse text = some (.elseIf "a / b") ∧
      Keyword.otherwise.read? text = none := by
  intro text
  have hread : parse? text = some (Branch.elseIf "a / b").directive := by decide
  obtain ⟨hbranch, -, -, horder, -, hword⟩ := parse?_stable text
  obtain ⟨hagain, hcondition⟩ := hbranch (.elseIf "a / b") hread
  have hreverse := horder Keyword.all.reverse fun keyword => List.mem_reverse.mpr keyword.mem_all
  exact ⟨hread, hagain, (hcondition _ rfl).2.2, hreverse.trans hread,
    (hword .otherwise 'i' "f\ta / b/// c".toList (by decide) (by decide)).1⟩

end Directive

end DocIndex
