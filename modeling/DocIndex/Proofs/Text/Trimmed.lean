import Mathlib.Data.List.Basic
import DocIndex.Text.Blank
import DocIndex.Text.Cut
import DocIndex.Text.Line

/-! # Trimmed texts, words and lines

What trimming, cutting, splitting into words and splitting into lines give back when the text was put
together from trimmed parts, words or lines. -/

namespace DocIndex.Text

variable {text pad : List Char}

/-! ### Blanks at the ends -/

/-- The text does not start with a blank. -/
def StartsInText (text : List Char) : Prop :=
  ∀ c ∈ text.head?, isBlank c = false

/-- The text does not end in a blank. -/
def EndsInText (text : List Char) : Prop :=
  ∀ c ∈ text.getLast?, isBlank c = false

/-- No blank stands at either end of the text. -/
structure Trimmed (text : List Char) : Prop where
  start : StartsInText text
  stop : EndsInText text

instance : DecidablePred StartsInText := fun text =>
  decidable_of_iff (text.head?.all fun c => !isBlank c) (by simp [StartsInText, Option.all_eq_true])

instance : DecidablePred EndsInText := fun text =>
  decidable_of_iff (text.getLast?.all fun c => !isBlank c) (by simp [EndsInText, Option.all_eq_true])

instance : DecidablePred Trimmed := fun text =>
  decidable_of_iff (StartsInText text ∧ EndsInText text) ⟨fun h => ⟨h.1, h.2⟩, fun h => ⟨h.start, h.stop⟩⟩

theorem StartsInText.dropWhile (h : StartsInText text) : text.dropWhile isBlank = text := by
  cases text with
  | nil => rfl
  | cons c rest => rw [List.dropWhile_cons, h c rfl]; rfl

theorem StartsInText.trimStart (h : StartsInText text) : trimStart text = text :=
  h.dropWhile

theorem trimStart_cons {c : Char} (h : isBlank c = false) (rest : List Char) : trimStart (c :: rest) = c :: rest :=
  StartsInText.trimStart fun _ hc => Option.some.inj hc ▸ h

theorem EndsInText.reverse (h : EndsInText text) : StartsInText text.reverse := by
  intro c hc
  rw [List.head?_reverse] at hc
  exact h c hc

theorem EndsInText.trimEnd (h : EndsInText text) : trimEnd text = text := by
  rw [Text.trimEnd, h.reverse.dropWhile, List.reverse_reverse]

theorem trimStart_append (hpad : ∀ c ∈ pad, isBlank c = true) (text : List Char) :
    trimStart (pad ++ text) = trimStart text :=
  List.dropWhile_append_of_pos hpad

theorem Trimmed.trim_append (h : Trimmed text) (hpad : ∀ c ∈ pad, isBlank c = true) :
    trim (pad ++ text) = text := by
  rw [trim, trimStart_append hpad, h.start.trimStart, h.stop.trimEnd]

theorem Trimmed.trim (h : Trimmed text) : trim text = text := by
  rw [Text.trim, h.start.trimStart, h.stop.trimEnd]

theorem EndsInText.append (h : EndsInText text) (hne : text ≠ []) (first : List Char) :
    EndsInText (first ++ text) := fun c hc => by
  rw [List.getLast?_append, List.getLast?_eq_some_getLast hne, Option.some_or] at hc
  exact h c (List.getLast?_eq_some_getLast hne ▸ hc)

theorem trimEnd_append (hpad : ∀ c ∈ pad, isBlank c = true) (text : List Char) :
    trimEnd (text ++ pad) = trimEnd text := by
  have hreverse : ∀ c ∈ pad.reverse, isBlank c = true := fun c hc => hpad c (List.mem_reverse.mp hc)
  rw [trimEnd, List.reverse_append, List.dropWhile_append_of_pos hreverse, trimEnd]

/-- All that is trimmed at the end is blank. -/
theorem exists_trimEnd_append (text : List Char) :
    ∃ pad, (∀ c ∈ pad, isBlank c = true) ∧ trimEnd text ++ pad = text := by
  refine ⟨(text.reverse.takeWhile isBlank).reverse, fun c hc => ?_, ?_⟩
  · exact List.all_eq_true.mp List.all_takeWhile c (List.mem_reverse.mp hc)
  · rw [trimEnd, ← List.reverse_append, List.takeWhile_append_dropWhile, List.reverse_reverse]

theorem isBlankText_append (hpad : ∀ c ∈ pad, isBlank c = true) (text : List Char) :
    isBlankText (text ++ pad) = isBlankText text := by
  simp only [isBlankText, List.all_append, List.all_eq_true.mpr hpad, Bool.and_true]

theorem head?_trimStart_append (hpad : ∀ c ∈ pad, isBlank c = true) (text : List Char) :
    (trimStart (text ++ pad)).head? = (trimStart text).head? := by
  induction text with
  | nil => rw [List.nil_append, ← List.append_nil pad, trimStart_append hpad]
  | cons c rest ih =>
    cases hc : isBlank c with
    | false => rw [List.cons_append, trimStart_cons hc, trimStart_cons hc]; rfl
    | true =>
      have hskip : ∀ tail, trimStart (c :: tail) = trimStart tail := fun tail =>
        List.dropWhile_cons_of_pos hc
      rw [List.cons_append, hskip, hskip, ih]

theorem isBlankText_eq_false {c : Char} (hmem : c ∈ text) (hc : isBlank c = false) :
    isBlankText text = false := by
  rw [isBlankText, List.all_eq_false]
  exact ⟨c, hmem, by simp [hc]⟩

theorem EndsInText.isBlankText (h : EndsInText text) (hne : text ≠ []) : isBlankText text = false := by
  have hlast := List.getLast?_eq_some_getLast hne
  exact isBlankText_eq_false (List.getLast_mem hne) (h _ hlast)

theorem trimStart_append_of_text (h : isBlankText text = false) (more : List Char) :
    trimStart (text ++ more) = trimStart text ++ more := by
  induction text with
  | nil => cases h
  | cons c rest ih =>
    cases hc : isBlank c with
    | false => rw [List.cons_append, trimStart_cons hc, trimStart_cons hc]; rfl
    | true =>
      have hskip : ∀ tail, trimStart (c :: tail) = trimStart tail := fun tail => List.dropWhile_cons_of_pos hc
      have hrest : isBlankText rest = false := by simpa [isBlankText, hc] using h
      rw [List.cons_append, hskip, hskip, ih hrest]

theorem trim_eq_nil (h : ∀ c ∈ text, isBlank c = true) : trim text = [] := by
  rw [trim, ← List.append_nil text, trimStart_append h]
  rfl

theorem trim_append_blank (hpad : ∀ c ∈ pad, isBlank c = true) (text : List Char) : trim (text ++ pad) = trim text := by
  cases htext : Text.isBlankText text with
  | false => rw [trim, trimStart_append_of_text htext, trimEnd_append hpad, trim]
  | true =>
    have hblank := List.all_eq_true.mp htext
    rw [trim_eq_nil hblank, trim_eq_nil fun c hc => (List.mem_append.mp hc).elim (hblank c) (hpad c)]

theorem trim_blank_append (hpad : ∀ c ∈ pad, isBlank c = true) (text : List Char) : trim (pad ++ text) = trim text := by
  rw [trim, trimStart_append hpad, trim]

theorem isBlank_of_mem_space : ∀ c ∈ [' '], isBlank c = true := by
  simp [isBlank]

theorem trim_space_cons (text : List Char) : trim (' ' :: text) = trim text :=
  trim_blank_append isBlank_of_mem_space text

theorem trim_trimEnd (text : List Char) : trim (trimEnd text) = trim text := by
  obtain ⟨pad, hpad, htext⟩ := exists_trimEnd_append text
  rw [← trim_append_blank hpad, htext]

/-- All that is trimmed is blank. -/
theorem exists_trim (text : List Char) :
    ∃ lead trail, (∀ c ∈ lead, isBlank c = true) ∧ (∀ c ∈ trail, isBlank c = true) ∧
      text = lead ++ (trim text ++ trail) := by
  obtain ⟨trail, htrail, heq⟩ := exists_trimEnd_append (trimStart text)
  refine ⟨text.takeWhile isBlank, trail, List.all_eq_true.mp List.all_takeWhile, htrail, ?_⟩
  rw [trim, heq, trimStart, List.takeWhile_append_dropWhile]

theorem trim_ne_nil (h : Text.isBlankText text = false) : trim text ≠ [] := by
  intro hnil
  obtain ⟨lead, trail, hlead, htrail, heq⟩ := exists_trim text
  rw [hnil, List.nil_append] at heq
  rw [heq, isBlankText_append htrail, Text.isBlankText, List.all_eq_true.mpr hlead] at h
  cases h

theorem endsInText_trimEnd (text : List Char) : EndsInText (trimEnd text) := by
  intro c hc
  have hhead := List.head?_dropWhile_not isBlank text.reverse
  rw [trimEnd, List.getLast?_reverse] at hc
  rw [hc] at hhead
  exact hhead

theorem startsInText_trimStart (text : List Char) : StartsInText (trimStart text) := by
  intro c hc
  have hhead := List.head?_dropWhile_not isBlank text
  rw [trimStart] at hc
  rw [hc] at hhead
  exact hhead

theorem EndsInText.of_append (first : List Char) (h : EndsInText (first ++ text)) : EndsInText text := fun c hc =>
  h c (by rw [List.getLast?_append, hc]; rfl)

theorem EndsInText.trimEnd_append (h : EndsInText text) (more : List Char) :
    Text.trimEnd (text ++ more) = text ++ Text.trimEnd more := by
  obtain ⟨pad, hpad, hmore⟩ := exists_trimEnd_append more
  have hstop : EndsInText (text ++ Text.trimEnd more) := by
    by_cases hnil : Text.trimEnd more = []
    · rw [hnil, List.append_nil]
      exact h
    · exact (endsInText_trimEnd more).append hnil text
  conv => lhs; rw [← hmore, ← List.append_assoc, Text.trimEnd_append hpad, hstop.trimEnd]

theorem EndsInText.trimStart (h : EndsInText text) : EndsInText (trimStart text) := by
  rw [← List.takeWhile_append_dropWhile (p := isBlank) (l := text)] at h
  exact h.of_append _

theorem StartsInText.trimStart_append (h : StartsInText text) (first : List Char) :
    Text.trimStart (first ++ text) = Text.trimStart first ++ text := by
  rw [Text.trimStart, List.dropWhile_append]
  split
  next hnil => rw [h.dropWhile, Text.trimStart, List.isEmpty_iff.mp hnil, List.nil_append]
  next => rfl

/-- Only the outer blanks of two texts with a link between them are trimmed. -/
theorem trim_append_link {link : List Char} (hne : link ≠ []) (h : Trimmed link) (left right : List Char) :
    trim (left ++ (link ++ right)) = Text.trimStart left ++ (link ++ Text.trimEnd right) := by
  have hstart : StartsInText (link ++ right) := fun c hc => by
    obtain ⟨first, rest, rfl⟩ := List.exists_cons_of_ne_nil hne
    exact h.start c hc
  have hstop : EndsInText (Text.trimStart left ++ link) := h.stop.append hne _
  rw [trim, hstart.trimStart_append, ← List.append_assoc, hstop.trimEnd_append, List.append_assoc]

theorem trim_append_cons {c : Char} (hc : isBlank c = false) (left right : List Char) :
    trim (left ++ c :: right) = Text.trimStart left ++ c :: Text.trimEnd right := by
  have hlink : Trimmed [c] :=
    ⟨fun d hd => (Option.some.inj hd) ▸ hc, fun d hd => (Option.some.inj hd) ▸ hc⟩
  exact trim_append_link (List.cons_ne_nil c []) hlink left right

theorem trim_trimStart (text : List Char) : trim (trimStart text) = trim text := by
  rw [trim, (startsInText_trimStart text).trimStart, trim]

theorem trim_isInfix (text : List Char) : trim text <:+: text := by
  obtain ⟨lead, trail, -, -, heq⟩ := exists_trim text
  exact ⟨lead, trail, by rw [List.append_assoc, ← heq]⟩

theorem trimEnd_isPrefix (text : List Char) : trimEnd text <+: text := by
  obtain ⟨pad, -, heq⟩ := exists_trimEnd_append text
  exact ⟨pad, heq⟩

theorem trimmed_trim (text : List Char) : Trimmed (trim text) := by
  refine ⟨fun c hc => startsInText_trimStart text c ?_, endsInText_trimEnd _⟩
  obtain ⟨pad, -, heq⟩ := exists_trimEnd_append (trimStart text)
  rw [trim] at hc
  rw [← heq, List.head?_append, hc]
  rfl

/-! ### Words -/

/-- A word: some characters, none of them blank. -/
def IsWord (word : List Char) : Prop :=
  word ≠ [] ∧ ∀ c ∈ word, isBlank c = false

instance : DecidablePred IsWord := fun word =>
  decidable_of_iff (word ≠ [] ∧ word.all fun c => !isBlank c) (by simp [IsWord])

theorem words_word {word : List Char} (h : IsWord word) : words word = [word] := by
  rw [words, List.splitOnP_eq_singleton h.2]
  simp [h.1]

theorem words_word_append {word : List Char} (h : IsWord word) {blank : Char} (hblank : isBlank blank = true)
    (rest : List Char) : words (word ++ blank :: rest) = word :: words rest := by
  rw [words, List.splitOnP_append_cons_of_forall_mem h.2 _ hblank]
  simp [h.1, words]

theorem IsWord.endsInText {word : List Char} (h : IsWord word) : EndsInText word := fun c hc =>
  h.2 c (List.mem_of_getLast? hc)

theorem isBlank_of_isAlphanum {c : Char} (h : c.isAlphanum = true) : isBlank c = false := by
  have hrange : 48 ≤ c.toNat ∧ c.toNat ≤ 122 := by
    change ((decide (65 ≤ c.val ∧ c.val ≤ 90) || decide (97 ≤ c.val) && decide (c.val ≤ 122)) ||
      decide (48 ≤ c.val) && decide (c.val ≤ 57)) = true at h
    simp only [Bool.or_eq_true, Bool.and_eq_true, decide_eq_true_eq, UInt32.le_iff_toNat_le, c.toNat_val] at h
    rcases h with (h | h) | h <;> simp at h <;> omega
  simp [isBlank]
  omega

/-! ### Cuts -/

theorem cutAt_append {mark : Char} {before : List Char} (h : mark ∉ before) (after : List Char) :
    cutAt mark (before ++ mark :: after) = some (before, after) := by
  induction before with
  | nil => simp [cutAt]
  | cons c rest ih =>
    rw [List.mem_cons, not_or] at h
    rw [List.cons_append, cutAt, if_neg (Ne.symm h.1), ih h.2]
    rfl

theorem cutAt_eq_some_iff {mark : Char} {before after : List Char} :
    cutAt mark text = some (before, after) ↔ text = before ++ mark :: after ∧ mark ∉ before := by
  constructor
  · intro h
    induction text generalizing before with
    | nil => cases h
    | cons c rest ih =>
      rw [cutAt] at h
      split at h
      next hc =>
        obtain ⟨rfl, rfl⟩ := Prod.mk.inj (Option.some.inj h)
        exact ⟨by rw [hc]; rfl, List.not_mem_nil⟩
      next hc =>
        obtain ⟨⟨first, second⟩, hcut, heq⟩ := Option.map_eq_some_iff.mp h
        obtain ⟨rfl, rfl⟩ := Prod.mk.inj heq
        obtain ⟨rfl, hmark⟩ := ih hcut
        exact ⟨rfl, by simp [Ne.symm hc, hmark]⟩
  · rintro ⟨rfl, h⟩
    exact cutAt_append h after

theorem cutAtLast_eq_none_iff {mark : Char} : cutAtLast mark text = none ↔ mark ∉ text := by
  induction text with
  | nil => simp [cutAtLast]
  | cons c rest ih =>
    rw [cutAtLast, List.mem_cons, not_or, ← ih]
    cases hrest : cutAtLast mark rest with
    | none =>
      by_cases hc : c = mark
      · simp [hc]
      · simp [hc, Ne.symm hc]
    | some parts => simp

theorem cutAtLast_eq_some_iff {mark : Char} {before after : List Char} :
    cutAtLast mark text = some (before, after) ↔ text = before ++ mark :: after ∧ mark ∉ after := by
  constructor
  · intro h
    induction text generalizing before with
    | nil => cases h
    | cons c rest ih =>
      rw [cutAtLast] at h
      split at h
      next first second hcut =>
        obtain ⟨rfl, rfl⟩ := Prod.mk.inj (Option.some.inj h)
        obtain ⟨rfl, hmark⟩ := ih hcut
        exact ⟨rfl, hmark⟩
      next hcut =>
        split at h
        next hc =>
          obtain ⟨rfl, rfl⟩ := Prod.mk.inj (Option.some.inj h)
          exact ⟨by rw [hc]; rfl, cutAtLast_eq_none_iff.mp hcut⟩
        next => cases h
  · rintro ⟨rfl, h⟩
    induction before with
    | nil => simp [cutAtLast, cutAtLast_eq_none_iff.mpr h]
    | cons c rest ih => rw [List.cons_append, cutAtLast, ih]

theorem hasPart_iff_isInfix {part : List Char} : hasPart part text = true ↔ part <:+: text := by
  induction text with
  | nil => simp [hasPart, cut]
  | cons c rest ih =>
    rw [List.infix_cons_iff, ← ih, hasPart, cut]
    split
    next after hpart => simp [← List.isPrefixOf?_eq_some_iff_append_eq.mp hpart]
    next hpart =>
      have hno : ¬part <+: c :: rest := fun ⟨after, heq⟩ => by
        simp [List.isPrefixOf?_eq_some_iff_append_eq.mpr heq] at hpart
      simp [hno, hasPart]

/-- The first occurrence of a part: there is none before it, not even one that overlaps it. -/
theorem cut_eq_some_iff {part before after : List Char} (hpart : part ≠ []) :
    cut part text = some (before, after) ↔ text = before ++ (part ++ after) ∧ ¬part <:+: before ++ part.dropLast := by
  have hlength : part.dropLast.length < part.length := by
    rw [List.length_dropLast]
    exact Nat.sub_lt (List.length_pos_iff.mpr hpart) Nat.one_pos
  constructor
  · intro h
    induction text generalizing before with
    | nil =>
      rw [cut, if_neg (by simpa using hpart)] at h
      cases h
    | cons c rest ih =>
      rw [cut] at h
      split at h
      next tail hlead =>
        obtain ⟨rfl, rfl⟩ := Prod.mk.inj (Option.some.inj h)
        exact ⟨(List.nil_append _).symm ▸ (List.isPrefixOf?_eq_some_iff_append_eq.mp hlead).symm,
          fun hin => absurd hin.length_le (Nat.not_le.mpr hlength)⟩
      next hlead =>
        obtain ⟨⟨first, second⟩, hcut, heq⟩ := Option.map_eq_some_iff.mp h
        obtain ⟨rfl, rfl⟩ := Prod.mk.inj heq
        obtain ⟨rfl, hfirst⟩ := ih hcut
        refine ⟨rfl, fun hin => ?_⟩
        rcases List.infix_cons_iff.mp hin with hstart | hlater
        · have hlonger : c :: (first ++ part.dropLast) <+: c :: (first ++ (part ++ second)) := by
            refine List.cons_prefix_cons.mpr ⟨rfl, (List.prefix_append_right_inj first).mpr ?_⟩
            exact (List.dropLast_prefix part).trans (List.prefix_append part second)
          obtain ⟨tail, htail⟩ := hstart.trans hlonger
          rw [List.isPrefixOf?_eq_some_iff_append_eq.mpr htail] at hlead
          cases hlead
        · exact hfirst hlater
  · rintro ⟨rfl, h⟩
    induction before with
    | nil =>
      obtain ⟨p, rest, rfl⟩ := List.exists_cons_of_ne_nil hpart
      rw [List.nil_append, List.cons_append, cut, ← List.cons_append, List.isPrefixOf?_eq_some_iff_append_eq.mpr rfl]
    | cons c rest ih =>
      rw [List.cons_append, List.infix_cons_iff, not_or] at h
      have hlead : part.isPrefixOf? (c :: (rest ++ (part ++ after))) = none := by
        rw [Option.eq_none_iff_forall_ne_some]
        intro tail htail
        -- The part would end before the end of the later occurrence.
        have hwhole : c :: (rest ++ part.dropLast) <+: c :: (rest ++ (part ++ after)) := by
          refine List.cons_prefix_cons.mpr ⟨rfl, (List.prefix_append_right_inj rest).mpr ?_⟩
          exact (List.dropLast_prefix part).trans (List.prefix_append part after)
        refine h.1 (List.prefix_of_prefix_length_le ⟨tail, List.isPrefixOf?_eq_some_iff_append_eq.mp htail⟩ hwhole ?_)
        simp
        omega
      rw [List.cons_append, cut, hlead, ih h.2]
      rfl

theorem cut_eq_none_iff {part : List Char} : cut part text = none ↔ ¬part <:+: text := by
  rw [← hasPart_iff_isInfix, hasPart, Option.isSome_iff_ne_none, ne_eq, Decidable.not_not]

/-- A part without a character occurs on one side of it. -/
theorem isInfix_append_cons {part first second : List Char} {c : Char} (hc : c ∉ part) :
    part <:+: first ++ c :: second ↔ part <:+: first ∨ part <:+: second := by
  constructor
  · rintro ⟨before, after, heq⟩
    rw [List.append_assoc, List.append_eq_append_iff] at heq
    rcases heq with ⟨between, rfl, hrest⟩ | ⟨between, rfl, hrest⟩
    · rcases List.append_eq_append_iff.mp hrest with ⟨more, rfl, -⟩ | ⟨more, rfl, hmore⟩
      · exact .inl ⟨before, more, by simp⟩
      · cases more with
        | nil => exact .inl ⟨before, [], by simp⟩
        | cons d more =>
          obtain ⟨rfl, -⟩ := List.cons.inj hmore
          exact absurd (List.mem_append_right _ List.mem_cons_self) hc
    · cases between with
      | nil =>
        rw [List.nil_append] at hrest
        cases part with
        | nil => exact .inl List.nil_infix
        | cons d part =>
          obtain ⟨rfl, -⟩ := List.cons.inj hrest
          exact absurd List.mem_cons_self hc
      | cons d between =>
        obtain ⟨-, rfl⟩ := List.cons.inj hrest
        exact .inr ⟨between, after, by simp⟩
  · rintro (h | h)
    · exact h.trans ⟨[], c :: second, rfl⟩
    · exact h.trans ⟨first ++ [c], [], by simp⟩

theorem dropStart_append (start rest : List Char) : dropStart start (start ++ rest) = rest := by
  rw [dropStart, List.isPrefixOf?_eq_some_iff_append_eq.mpr rfl]
  rfl

/-! ### Lines -/

theorem linesOfPieces_eq_self : ∀ {pieces : List (List Char)}, (∀ piece ∈ pieces, piece ≠ []) →
    (∀ piece ∈ pieces, piece.getLast? ≠ some '\r') → linesOfPieces pieces = pieces
  | [], _, _ => rfl
  | [last], hne, _ => by simp [linesOfPieces, hne last]
  | piece :: next :: rest, hne, hreturn => by
    have ih := linesOfPieces_eq_self (List.forall_mem_cons.mp hne).2 (List.forall_mem_cons.mp hreturn).2
    rw [linesOfPieces, ih, dropReturn, if_neg (hreturn piece List.mem_cons_self)]

/-- The lines of a text are those that it was put together from, if each of them holds something, is a
single line and ends in no carriage return. -/
theorem lines_intercalate {pieces : List (List Char)} (hsome : pieces ≠ [])
    (hsingle : ∀ piece ∈ pieces, '\n' ∉ piece) (hne : ∀ piece ∈ pieces, piece ≠ [])
    (hreturn : ∀ piece ∈ pieces, piece.getLast? ≠ some '\r') :
    lines (['\n'].intercalate pieces) = pieces := by
  have hsplit : (['\n'].intercalate pieces).splitOnP (· == '\n') = pieces :=
    List.splitOn_intercalate '\n' hsingle hsome
  rw [lines, hsplit, linesOfPieces_eq_self hne hreturn]

theorem dropReturn_isPrefix (line : List Char) : dropReturn line <+: line := by
  unfold dropReturn
  split
  · exact List.dropLast_prefix line
  · exact List.prefix_rfl

theorem EndsInText.dropReturn (h : EndsInText text) : dropReturn text = text :=
  if_neg fun hlast => absurd (h '\r' hlast) (by decide)

theorem dropReturn_append (hpad : dropReturn pad = pad) (line : List Char) :
    dropReturn (pad ++ line) = pad ++ dropReturn line := by
  cases line with
  | nil => rw [List.append_nil, hpad]; simp [dropReturn]
  | cons c rest =>
    have hlast : (pad ++ c :: rest).getLast? = (c :: rest).getLast? := by simp [List.getLast?_cons]
    have hinit : (pad ++ c :: rest).dropLast = pad ++ (c :: rest).dropLast := by simp
    rw [dropReturn, dropReturn, hlast, hinit, apply_ite (pad ++ ·)]

/-- The carriage return that ends a line is blank. -/
theorem exists_dropReturn_append (line : List Char) :
    ∃ pad, (∀ c ∈ pad, isBlank c = true) ∧ dropReturn line ++ pad = line := by
  unfold dropReturn
  split
  next hlast =>
    obtain ⟨before, rfl⟩ := List.getLast?_eq_some_iff.mp hlast
    exact ⟨['\r'], by simp [isBlank], by rw [List.dropLast_concat]⟩
  next => exact ⟨[], fun _ hc => absurd hc List.not_mem_nil, List.append_nil line⟩

theorem lines_single (h : '\n' ∉ text) (hne : text ≠ []) : lines text = [text] := by
  rw [lines, List.splitOnP_eq_singleton fun c hc => by simpa using fun heq : c = '\n' => h (heq ▸ hc)]
  simp [linesOfPieces, hne]

theorem lines_append_cons {line : List Char} (h : '\n' ∉ line) (rest : List Char) :
    lines (line ++ '\n' :: rest) = dropReturn line :: lines rest := by
  have hplain : ∀ c ∈ line, (c == '\n') = false := fun c hc => by simpa using fun heq : c = '\n' => h (heq ▸ hc)
  have hsplit := List.splitOnP_append_cons_of_forall_mem hplain '\n' rfl rest
  rw [lines, hsplit, lines]
  cases hpieces : rest.splitOnP (· == '\n') with
  | nil => exact absurd hpieces (List.splitOnP_ne_nil _ _)
  | cons piece pieces => rfl

/-- The lines of pieces put one below the other, where the last of them holds something. -/
theorem lines_intercalate_concat {last : List Char} (hne : last ≠ []) (hlast : '\n' ∉ last) :
    ∀ {pieces : List (List Char)}, (∀ piece ∈ pieces, '\n' ∉ piece) →
      lines (['\n'].intercalate (pieces ++ [last])) = pieces.map dropReturn ++ [last]
  | [], _ => by
    rw [List.nil_append, List.intercalate_singleton, lines_single hlast hne]
    rfl
  | piece :: rest, h => by
    obtain ⟨hpiece, hrest⟩ := List.forall_mem_cons.mp h
    have hsome : rest ++ [last] ≠ [] := by simp
    obtain ⟨next, more, hnext⟩ := List.exists_cons_of_ne_nil hsome
    have ih := lines_intercalate_concat hne hlast hrest
    rw [hnext] at ih
    rw [List.cons_append, hnext, List.intercalate_cons_cons, List.append_assoc, List.singleton_append,
      lines_append_cons hpiece, ih]
    rfl

/-- A text is a single line, or a line above another text. -/
@[elab_as_elim]
theorem lineInduction {motive : List Char → Prop} (single : ∀ line, '\n' ∉ line → motive line)
    (above : ∀ line rest, '\n' ∉ line → motive rest → motive (line ++ '\n' :: rest)) (text : List Char) :
    motive text := by
  by_cases h : '\n' ∈ text
  · obtain ⟨line, rest, rfl, hline⟩ := List.eq_append_cons_of_mem h
    exact above line rest hline (lineInduction single above rest)
  · exact single text h
termination_by text.length

theorem lines_append_newline (hne : text ≠ []) (h : EndsInText text) (rest : List Char) :
    lines (text ++ '\n' :: rest) = lines text ++ lines rest := by
  induction text using lineInduction with
  | single line hline =>
    rw [lines_append_cons hline, h.dropReturn, lines_single hline hne]
    rfl
  | above line below hline ih =>
    cases below with
    | nil => exact absurd (h '\n' (by simp)) (by decide)
    | cons c below =>
      have hbelow : EndsInText (c :: below) := fun d hd => h d (by simpa using hd)
      rw [List.append_assoc, List.cons_append, lines_append_cons hline, lines_append_cons hline,
        ih (List.cons_ne_nil c below) hbelow, List.cons_append]

/-- A text without line feeds before the first line changes that line only. -/
theorem exists_lines_append (hpad : EndsInText pad) (hsingle : '\n' ∉ pad) (hne : text ≠ []) :
    ∃ first below, lines text = first :: below ∧ lines (pad ++ text) = (pad ++ first) :: below := by
  by_cases h : '\n' ∈ text
  · obtain ⟨line, rest, rfl, hline⟩ := List.eq_append_cons_of_mem h
    have hlines : lines (pad ++ line ++ '\n' :: rest) = (pad ++ dropReturn line) :: lines rest := by
      rw [lines_append_cons (by simp [hsingle, hline]), dropReturn_append hpad.dropReturn]
    exact ⟨dropReturn line, lines rest, lines_append_cons hline rest, by rw [← List.append_assoc, hlines]⟩
  · exact ⟨text, [], lines_single h hne, lines_single (by simp [hsingle, h]) (by simp [hne])⟩

end DocIndex.Text
