import DocIndex.Proofs.Text.Trimmed
import DocIndex.Text.Nesting

/-! # Texts put together at the top level

A scan tells its next characters by its level and, after a backslash or a dash, by the character before. So blanks
around a piece change nothing for what follows (`Scan.level_after_trim`, `cutTopFrom_trim`), and pieces that are
put together with a separator and a space are split apart again (`splitTop_intercalate`). What a split gives are
such pieces (`apart_splitTop`), whatever the text. -/

namespace DocIndex.Text

/-! ### Scans -/

/-- A character that is no bracket and no quote. -/
def isOrdinary (c : Char) : Bool :=
  !(['"', '(', '[', '\x7b', '<', ')', ']', '\x7d', '>'].contains c)

/-- A character that changes nothing for the next one either: it neither escapes it nor makes an arrow of it. -/
def isPlain (c : Char) : Bool :=
  isOrdinary c && c != '\\' && c != '-'

/-- The characters that are not plain. -/
def scanMarks : List Char :=
  ['"', '(', '[', '\x7b', '<', ')', ']', '\x7d', '>', '\\', '-']

theorem isPlain_of_not_mem {c : Char} (h : c ∉ scanMarks) : isPlain c = true := by
  simp only [scanMarks, List.mem_cons, List.not_mem_nil, or_false, not_or] at h
  simp [isPlain, isOrdinary, h]

theorem not_mem_of_all_not {p : Char → Bool} {marks : List Char} {c : Char} (hmarks : marks.all (fun d => !p d) = true)
    (h : p c = true) : c ∉ marks := fun hmem => by
  have hmark := List.all_eq_true.mp hmarks c hmem
  rw [h] at hmark
  cases hmark

theorem isPlain_of_isBlank {c : Char} (h : isBlank c = true) : isPlain c = true :=
  isPlain_of_not_mem (not_mem_of_all_not (by decide) h)

namespace Scan

/-- The scan after a text. -/
def after (scan : Scan) (text : List Char) : Scan :=
  text.foldl step scan

@[simp] theorem after_nil (scan : Scan) : scan.after [] = scan :=
  rfl

@[simp] theorem after_cons (scan : Scan) (c : Char) (rest : List Char) :
    scan.after (c :: rest) = (scan.step c).after rest :=
  rfl

theorem after_append (scan : Scan) (first second : List Char) :
    scan.after (first ++ second) = (scan.after first).after second :=
  List.foldl_append

/-- How many brackets are open, and whether a literal is. -/
def level (scan : Scan) : Nat × Bool :=
  (scan.depth, scan.quoted)

/-- The character before has no bearing on the next one. -/
def Settled (scan : Scan) : Prop :=
  scan.previous ≠ '\\' ∧ scan.previous ≠ '-'

theorem settled_start : start.Settled :=
  ⟨by decide, by decide⟩

variable {scan other : Scan} {c : Char}

theorem isTop_eq (h : scan.level = other.level) : scan.isTop = other.isTop := by
  obtain ⟨hdepth, hquoted⟩ := Prod.mk.inj h
  rw [isTop, isTop, hdepth, hquoted]

theorem previous_step (scan : Scan) (c : Char) : (scan.step c).previous = c := by
  unfold step
  repeat' split
  all_goals rfl

/-- Settled scans on the same level go on in the same way. -/
theorem Settled.step_eq (h : scan.Settled) (hother : other.Settled) (hlevel : scan.level = other.level) (c : Char) :
    scan.step c = other.step c := by
  obtain ⟨hdepth, hquoted⟩ := Prod.mk.inj hlevel
  simp only [step, hdepth, hquoted, bne_iff_ne.mpr h.1, bne_iff_ne.mpr hother.1, beq_eq_false_iff_ne.mpr h.2,
    beq_eq_false_iff_ne.mpr hother.2]

theorem Settled.level_after (h : scan.Settled) (hother : other.Settled) (hlevel : scan.level = other.level)
    (text : List Char) : (scan.after text).level = (other.after text).level := by
  cases text with
  | nil => exact hlevel
  | cons c rest => rw [after_cons, after_cons, h.step_eq hother hlevel]

theorem step_ordinary (h : isOrdinary c = true) (scan : Scan) : scan.step c = { scan with previous := c } := by
  simp only [isOrdinary, List.contains_cons, List.contains_nil, Bool.or_false, Bool.not_eq_true',
    Bool.or_eq_false_iff] at h
  simp only [step, h]
  cases hquoted : scan.quoted <;> simp

theorem step_plain (h : isPlain c = true) (scan : Scan) : scan.step c = { scan with previous := c } := by
  simp only [isPlain, Bool.and_eq_true] at h
  exact step_ordinary h.1.1 scan

theorem settled_step (h : isPlain c = true) : (scan.step c).Settled := by
  constructor <;> rw [previous_step] <;> rintro rfl <;> exact absurd h (by decide)

section Plain

variable {text : List Char} (htext : ∀ c ∈ text, isPlain c = true)

include htext

theorem level_after_plain (scan : Scan) : (scan.after text).level = scan.level := by
  induction text generalizing scan with
  | nil => rfl
  | cons c rest ih =>
    obtain ⟨hc, hrest⟩ := List.forall_mem_cons.mp htext
    rw [after_cons, ih hrest, step_plain hc]
    rfl

theorem Settled.after_plain (h : scan.Settled) : (scan.after text).Settled := by
  induction text generalizing scan with
  | nil => exact h
  | cons c rest ih =>
    obtain ⟨hc, hrest⟩ := List.forall_mem_cons.mp htext
    exact ih hrest (settled_step hc)

/-- A plain character settles every scan. -/
theorem settled_after_plain (hne : text ≠ []) (scan : Scan) : (scan.after text).Settled := by
  obtain ⟨c, rest, rfl⟩ := List.exists_cons_of_ne_nil hne
  obtain ⟨hc, hrest⟩ := List.forall_mem_cons.mp htext
  rw [after_cons]
  exact (settled_step hc).after_plain hrest

end Plain

end Scan

/-! ### Cuts -/

section

variable {mark : Char} {scan other : Scan} {text : List Char}

theorem Scan.Settled.cutTopFrom_eq (h : scan.Settled) (hother : other.Settled) (hlevel : scan.level = other.level)
    (mark : Char) (text : List Char) : cutTopFrom mark scan text = cutTopFrom mark other text := by
  cases text with
  | nil => rfl
  | cons c rest => rw [cutTopFrom, cutTopFrom, Scan.isTop_eq hlevel, h.step_eq hother hlevel]

theorem cutTopFrom_cons_eq_none {c : Char} {rest : List Char} :
    cutTopFrom mark scan (c :: rest) = none ↔
      (scan.isTop && c == mark) = false ∧ cutTopFrom mark (scan.step c) rest = none := by
  rw [cutTopFrom]
  split
  next htop => simp [htop]
  next htop => simp [htop]

theorem cutTopFrom_append_eq_none {first second : List Char} :
    cutTopFrom mark scan (first ++ second) = none ↔
      cutTopFrom mark scan first = none ∧ cutTopFrom mark (scan.after first) second = none := by
  induction first generalizing scan with
  | nil => simp [cutTopFrom]
  | cons c rest ih =>
    rw [List.cons_append, cutTopFrom_cons_eq_none, cutTopFrom_cons_eq_none, ih, and_assoc, Scan.after_cons]

theorem cutTopFrom_of_not_mem (h : mark ∉ text) (scan : Scan) : cutTopFrom mark scan text = none := by
  induction text generalizing scan with
  | nil => rfl
  | cons c rest ih =>
    rw [List.mem_cons, not_or] at h
    refine cutTopFrom_cons_eq_none.mpr ⟨?_, ih h.2 _⟩
    rw [beq_false_of_ne (Ne.symm h.1), Bool.and_false]

/-- The first mark at the top level has none before it. -/
theorem cutTopFrom_eq_some_iff {before after : List Char} :
    cutTopFrom mark scan text = some (before, after) ↔
      text = before ++ mark :: after ∧ cutTopFrom mark scan before = none ∧ (scan.after before).isTop = true := by
  constructor
  · intro h
    induction text generalizing scan before with
    | nil => cases h
    | cons c rest ih =>
      rw [cutTopFrom] at h
      split at h
      next htop =>
        obtain ⟨rfl, rfl⟩ := Prod.mk.inj (Option.some.inj h)
        obtain ⟨htop, hc⟩ := Bool.and_eq_true_iff.mp htop
        exact ⟨by rw [beq_iff_eq.mp hc]; rfl, rfl, htop⟩
      next htop =>
        obtain ⟨⟨first, second⟩, hcut, heq⟩ := Option.map_eq_some_iff.mp h
        obtain ⟨rfl, rfl⟩ := Prod.mk.inj heq
        obtain ⟨rfl, hnone, hend⟩ := ih hcut
        exact ⟨rfl, cutTopFrom_cons_eq_none.mpr ⟨Bool.not_eq_true _ ▸ htop, hnone⟩, hend⟩
  · rintro ⟨rfl, hnone, htop⟩
    induction before generalizing scan with
    | nil =>
      rw [Scan.after_nil] at htop
      simp [cutTopFrom, htop]
    | cons c rest ih =>
      obtain ⟨hc, hrest⟩ := cutTopFrom_cons_eq_none.mp hnone
      rw [List.cons_append, cutTopFrom, hc, ih hrest htop]
      rfl

end

/-! ### Blanks around a text -/

section

variable {text : List Char}

theorem forall_isPlain (h : ∀ c ∈ text, isBlank c = true) : ∀ c ∈ text, isPlain c = true :=
  fun c hc => isPlain_of_isBlank (h c hc)

theorem Scan.Settled.level_after_trim {scan : Scan} (h : scan.Settled) (text : List Char) :
    (scan.after (trim text)).level = (scan.after text).level := by
  obtain ⟨lead, trail, hlead, htrail, heq⟩ := exists_trim text
  have hlevel := level_after_plain (forall_isPlain hlead) scan
  calc (scan.after (trim text)).level
      = ((scan.after lead).after (trim text)).level :=
        h.level_after (h.after_plain (forall_isPlain hlead)) hlevel.symm _
    _ = (scan.after text).level := by
        rw [← level_after_plain (forall_isPlain htrail), ← after_append, ← after_append, ← heq]

theorem Scan.isTop_after_congr {other : List Char} (h : trim text = trim other) :
    (start.after text).isTop = (start.after other).isTop := by
  rw [isTop_eq (settled_start.level_after_trim text).symm, h, isTop_eq (settled_start.level_after_trim other)]

variable {mark : Char} (hmark : isBlank mark = false)

include hmark

theorem not_mem_of_blank (h : ∀ c ∈ text, isBlank c = true) : mark ∉ text := fun hmem => by
  rw [h mark hmem] at hmark
  cases hmark

theorem cutTopFrom_trim {scan : Scan} (h : scan.Settled) (text : List Char) :
    cutTopFrom mark scan (trim text) = none ↔ cutTopFrom mark scan text = none := by
  obtain ⟨lead, trail, hlead, htrail, heq⟩ := exists_trim text
  have hsame := h.cutTopFrom_eq (h.after_plain (forall_isPlain hlead))
    (Scan.level_after_plain (forall_isPlain hlead) scan).symm mark (trim text)
  conv => rhs; rw [heq, cutTopFrom_append_eq_none, cutTopFrom_append_eq_none, ← hsame]
  simp [cutTopFrom_of_not_mem (not_mem_of_blank hmark hlead), cutTopFrom_of_not_mem (not_mem_of_blank hmark htrail)]

theorem cutTop_eq_none_congr {other : List Char} (h : trim text = trim other) :
    cutTop mark text = none ↔ cutTop mark other = none := by
  have htext := cutTopFrom_trim hmark Scan.settled_start text
  rw [h] at htext
  exact htext.symm.trans (cutTopFrom_trim hmark Scan.settled_start other)

theorem cutTop_trim_eq_some {before after : List Char} (h : cutTop mark text = some (before, after)) :
    cutTop mark (trim text) = some (trimStart before, trimEnd after) := by
  obtain ⟨rfl, hnone, htop⟩ := cutTopFrom_eq_some_iff.mp h
  have hsame : trim (trimStart before) = trim before := trim_trimStart before
  rw [cutTop, trim_append_cons hmark, cutTopFrom_eq_some_iff]
  refine ⟨rfl, (cutTop_eq_none_congr hmark hsame).mpr hnone, ?_⟩
  rw [Scan.isTop_after_congr hsame]
  exact htop

end

/-! ### Texts with a link between them

Two texts with a link between them, such as a colon or an equal sign, and the same two texts with perhaps more blanks
in the link, the second trimmed and the first in any form that is scanned alike. -/

section

variable {link spaced left other : List Char} (hlink : link ≠ [] ∧ ∀ c ∈ link, isPlain c = true)
  (hspaced : spaced ≠ [] ∧ ∀ c ∈ spaced, isPlain c = true)
  (hlevel : (Scan.start.after other).level = (Scan.start.after left).level) (right : List Char)

include hlink hspaced hlevel

theorem Scan.level_after_link :
    ((start.after other).after spaced).level = ((start.after left).after link).level := by
  rw [level_after_plain hspaced.2, level_after_plain hlink.2, hlevel]

theorem Scan.level_after_spaced :
    (start.after (other ++ (spaced ++ trim right))).level = (start.after (left ++ (link ++ right))).level := by
  have hlinked := level_after_link hlink hspaced hlevel
  have hsettled := settled_after_plain hspaced.2 hspaced.1 (start.after other)
  simp only [after_append]
  rw [hsettled.level_after_trim, hsettled.level_after (settled_after_plain hlink.2 hlink.1 _) hlinked]

theorem cutTop_spaced {mark : Char} (hmark : isBlank mark = false) (hnone : mark ∉ spaced)
    (hother : cutTop mark other = none) (h : cutTop mark (left ++ (link ++ right)) = none) :
    cutTop mark (other ++ (spaced ++ trim right)) = none := by
  obtain ⟨-, hrest⟩ := cutTopFrom_append_eq_none.mp h
  obtain ⟨-, hright⟩ := cutTopFrom_append_eq_none.mp hrest
  have hlinked := Scan.level_after_link hlink hspaced hlevel
  have hsettled := Scan.settled_after_plain hspaced.2 hspaced.1 (Scan.start.after other)
  refine cutTopFrom_append_eq_none.mpr ⟨hother, ?_⟩
  refine cutTopFrom_append_eq_none.mpr ⟨cutTopFrom_of_not_mem hnone _, ?_⟩
  rw [cutTopFrom_trim hmark hsettled, hsettled.cutTopFrom_eq (Scan.settled_after_plain hlink.2 hlink.1 _) hlinked]
  exact hright

end

/-! ### Pieces -/

section

variable {separator : Char} {scan : Scan} {piece rest text pad : List Char}

theorem piecesFrom_eq_singleton (h : cutTopFrom separator scan text = none) :
    piecesFrom separator scan text = [text] := by
  induction text generalizing scan with
  | nil => rfl
  | cons c rest ih =>
    obtain ⟨hc, hrest⟩ := cutTopFrom_cons_eq_none.mp h
    rw [piecesFrom, hc, ih hrest]
    rfl

theorem piecesFrom_append_cons (h : cutTopFrom separator scan piece = none) (htop : (scan.after piece).isTop = true)
    (rest : List Char) :
    piecesFrom separator scan (piece ++ separator :: rest) = piece :: piecesFrom separator .start rest := by
  induction piece generalizing scan with
  | nil =>
    rw [Scan.after_nil] at htop
    simp [piecesFrom, htop]
  | cons c piece ih =>
    obtain ⟨hc, hrest⟩ := cutTopFrom_cons_eq_none.mp h
    rw [List.cons_append, piecesFrom, hc, ih hrest htop]
    rfl

/-- A text is a single piece, or a piece, a separator and another text. -/
@[elab_as_elim]
theorem pieceInduction {motive : List Char → Prop} (separator : Char)
    (single : ∀ piece, cutTop separator piece = none → motive piece)
    (before : ∀ piece rest, cutTop separator piece = none → (Scan.start.after piece).isTop = true → motive rest →
      motive (piece ++ separator :: rest)) (text : List Char) : motive text := by
  cases hcut : cutTop separator text with
  | none => exact single text hcut
  | some parts =>
    obtain ⟨rfl, hnone, htop⟩ := cutTopFrom_eq_some_iff.mp hcut
    exact before parts.1 parts.2 hnone htop (pieceInduction separator single before parts.2)
termination_by text.length
decreasing_by
  simp [‹text = _›]
  omega

/-- Pieces that a separator keeps apart: none has one at the top level, and each that is followed by another ends
there. -/
structure Apart (separator : Char) (pieces : List (List Char)) : Prop where
  whole : ∀ piece ∈ pieces, cutTop separator piece = none
  ends : pieces.Pairwise fun piece _ => (Scan.start.after piece).isTop = true

theorem apart_piecesFrom (separator : Char) (text : List Char) :
    Apart separator (piecesFrom separator .start text) := by
  induction text using pieceInduction separator with
  | single piece hpiece =>
    rw [piecesFrom_eq_singleton hpiece]
    exact ⟨by simpa using hpiece, List.pairwise_singleton _ _⟩
  | before piece rest hpiece htop ih =>
    rw [piecesFrom_append_cons hpiece htop]
    exact ⟨List.forall_mem_cons.mpr ⟨hpiece, ih.whole⟩, List.pairwise_cons.mpr ⟨fun _ _ => htop, ih.ends⟩⟩

variable (hseparator : isBlank separator = false)

include hseparator

theorem Apart.trimmed {pieces : List (List Char)} (h : Apart separator pieces) :
    Apart separator ((pieces.map trim).filter (!·.isEmpty)) where
  whole piece hpiece := by
    obtain ⟨raw, hraw, rfl⟩ := List.mem_map.mp (List.mem_filter.mp hpiece).1
    exact (cutTopFrom_trim hseparator Scan.settled_start raw).mpr (h.whole raw hraw)
  ends := by
    refine List.Pairwise.filter _ (List.pairwise_map.mpr (h.ends.imp fun htop => ?_))
    rw [Scan.isTop_eq (Scan.settled_start.level_after_trim _)]
    exact htop

/-- What a split gives is kept apart by its separator. -/
theorem apart_splitTop (text : List Char) : Apart separator (splitTop separator text) :=
  (apart_piecesFrom separator text).trimmed hseparator

theorem exists_piecesFrom_append (hpad : ∀ c ∈ pad, isBlank c = true) (text : List Char) :
    ∃ front last, piecesFrom separator .start text = front ++ [last] ∧
      piecesFrom separator .start (text ++ pad) = front ++ [last ++ pad] := by
  induction text using pieceInduction separator with
  | single piece hpiece =>
    refine ⟨[], piece, piecesFrom_eq_singleton hpiece, piecesFrom_eq_singleton ?_⟩
    exact cutTopFrom_append_eq_none.mpr ⟨hpiece, cutTopFrom_of_not_mem (not_mem_of_blank hseparator hpad) _⟩
  | before piece rest hpiece htop ih =>
    obtain ⟨front, last, hrest, hpadded⟩ := ih
    refine ⟨piece :: front, last, ?_, ?_⟩
    · rw [piecesFrom_append_cons hpiece htop, hrest]
      rfl
    · rw [List.append_assoc, List.cons_append, piecesFrom_append_cons hpiece htop, hpadded]
      rfl

theorem exists_append_piecesFrom (hpad : ∀ c ∈ pad, isBlank c = true) (text : List Char) :
    ∃ first rest, piecesFrom separator .start text = first :: rest ∧
      piecesFrom separator .start (pad ++ text) = (pad ++ first) :: rest := by
  have hplain := forall_isPlain hpad
  have hsettled := Scan.settled_start.after_plain hplain
  have hlevel := Scan.level_after_plain hplain .start
  -- A piece is scanned behind the blanks as it is at the start.
  have hnone : ∀ piece, cutTop separator piece = none → cutTop separator (pad ++ piece) = none := fun piece hpiece => by
    refine cutTopFrom_append_eq_none.mpr ⟨cutTopFrom_of_not_mem (not_mem_of_blank hseparator hpad) _, ?_⟩
    rw [hsettled.cutTopFrom_eq Scan.settled_start hlevel]
    exact hpiece
  induction text using pieceInduction separator with
  | single piece hpiece =>
    exact ⟨piece, [], piecesFrom_eq_singleton hpiece, piecesFrom_eq_singleton (hnone piece hpiece)⟩
  | before piece rest hpiece htop ih =>
    refine ⟨piece, piecesFrom separator .start rest, piecesFrom_append_cons hpiece htop rest, ?_⟩
    have hpadded : (Scan.start.after (pad ++ piece)).isTop = true := by
      rw [Scan.after_append, Scan.isTop_eq (hsettled.level_after Scan.settled_start hlevel piece)]
      exact htop
    rw [← List.append_assoc, piecesFrom_append_cons (hnone piece hpiece) hpadded]

/-- Blanks around a text are no part of its pieces. -/
theorem splitTop_trim (text : List Char) : splitTop separator (trim text) = splitTop separator text := by
  obtain ⟨lead, trail, hlead, htrail, heq⟩ := exists_trim text
  obtain ⟨front, last, hpieces, htrailed⟩ := exists_piecesFrom_append hseparator htrail (trim text)
  obtain ⟨first, rest, hfirst, hled⟩ := exists_append_piecesFrom hseparator hlead (trim text ++ trail)
  have hlast : (first :: rest).map trim = (front ++ [last]).map trim := by
    rw [← hfirst, htrailed, List.map_append, List.map_append, List.map_singleton, List.map_singleton,
      trim_append_blank htrail]
  conv => rhs; rw [heq]
  rw [splitTop, splitTop, hled, hpieces, List.map_cons, trim_blank_append hlead, ← List.map_cons, hlast]

theorem splitTop_congr {other : List Char} (h : trim text = trim other) :
    splitTop separator text = splitTop separator other := by
  rw [← splitTop_trim hseparator, h, splitTop_trim hseparator]

theorem piecesFrom_intercalate {pieces : List (List Char)} (h : Apart separator (piece :: pieces)) :
    piecesFrom separator .start ([separator, ' '].intercalate (piece :: pieces)) = piece :: pieces.map (' ' :: ·) := by
  induction pieces generalizing piece with
  | nil =>
    rw [List.intercalate_singleton]
    exact piecesFrom_eq_singleton (h.whole piece List.mem_cons_self)
  | cons next rest ih =>
    obtain ⟨hpiece, hrest⟩ := List.forall_mem_cons.mp h.whole
    obtain ⟨hends, hlater⟩ := List.pairwise_cons.mp h.ends
    obtain ⟨first, more, hplain, hpadded⟩ := exists_append_piecesFrom hseparator isBlank_of_mem_space
      ([separator, ' '].intercalate (next :: rest))
    rw [ih ⟨hrest, hlater⟩] at hplain
    obtain ⟨rfl, rfl⟩ := List.cons.inj hplain
    have hjoined : [separator, ' '].intercalate (piece :: next :: rest) =
        piece ++ separator :: ([' '] ++ [separator, ' '].intercalate (next :: rest)) := by
      rw [List.intercalate_cons_cons, List.append_assoc]
      rfl
    rw [hjoined, piecesFrom_append_cons hpiece (hends next List.mem_cons_self), hpadded]
    rfl

/-- Pieces that a separator keeps apart are split apart again, but for the blanks around them. -/
theorem splitTop_intercalate {pieces : List (List Char)} (h : Apart separator pieces) :
    splitTop separator ([separator, ' '].intercalate pieces) = (pieces.map trim).filter (!·.isEmpty) := by
  cases pieces with
  | nil => rfl
  | cons piece rest =>
    rw [splitTop, piecesFrom_intercalate hseparator h, List.map_cons, List.map_map]
    simp [trim_space_cons, Function.comp_def]

theorem splitTop_intercalate_of_trimmed {pieces : List (List Char)} (h : Apart separator pieces)
    (htrimmed : ∀ piece ∈ pieces, Trimmed piece ∧ piece ≠ []) :
    splitTop separator ([separator, ' '].intercalate pieces) = pieces := by
  have hmap : pieces.map trim = pieces :=
    (List.map_congr_left fun piece hpiece => (htrimmed piece hpiece).1.trim).trans (List.map_id' pieces)
  rw [splitTop_intercalate hseparator h, hmap, List.filter_eq_self]
  intro piece hpiece
  simpa using (htrimmed piece hpiece).2

omit hseparator in
theorem trimmed_of_mem_splitTop (h : piece ∈ splitTop separator text) : Trimmed piece ∧ piece ≠ [] := by
  obtain ⟨hmem, hne⟩ := List.mem_filter.mp h
  obtain ⟨raw, -, rfl⟩ := List.mem_map.mp hmem
  exact ⟨trimmed_trim raw, by simpa using hne⟩

end

end DocIndex.Text
