import DocIndex.Proofs.Text.Nesting

/-! # Balanced fragments

A fragment is balanced if its brackets are nested and its string literals closed. A scan comes back from such a
fragment to the level where it started (`Balanced.passes`), so a list of them is split at its commas
(`splitTop_balanced`), unless a literal ends in an escaped backslash: the scan takes the quote after it for an
escaped one, and the literal goes on (`splitTop_escaped_backslash`). -/

namespace DocIndex.Text

/-! ### Fragments -/

inductive Bracket where
  | round
  | square
  | curly
  | angle
  deriving DecidableEq, Repr

namespace Bracket

def opening : Bracket → Char
  | round => '('
  | square => '['
  | curly => '\x7b'
  | angle => '<'

def closing : Bracket → Char
  | round => ')'
  | square => ']'
  | curly => '\x7d'
  | angle => '>'

end Bracket

/-- What stands between the quotes of a string literal. A backslash escapes exactly the next character. -/
inductive LiteralText : List Char → Prop where
  | nil : LiteralText []
  | char {c : Char} {rest : List Char} (hquote : c ≠ '"') (hescape : c ≠ '\\') (h : LiteralText rest) :
    LiteralText (c :: rest)
  | escaped (c : Char) {rest : List Char} (h : LiteralText rest) : LiteralText ('\\' :: c :: rest)

/-- A literal whose closing quote has no backslash before it, not even an escaped one. -/
def Sealed (text : List Char) : Prop :=
  LiteralText text ∧ text.getLast? ≠ some '\\'

/-- Text with nested brackets and with literals of a given kind. A comma may stand only `inside` of brackets, and
the `>` of an arrow is no bracket. -/
inductive Balanced (literal : List Char → Prop) : (inside : Bool) → List Char → Prop where
  | nil {inside : Bool} : Balanced literal inside []
  | char {inside : Bool} {c : Char} {rest : List Char} (hc : isOrdinary c = true) (hcomma : c = ',' → inside = true)
    (h : Balanced literal inside rest) : Balanced literal inside (c :: rest)
  | arrow {inside : Bool} {rest : List Char} (h : Balanced literal inside rest) :
    Balanced literal inside ('-' :: '>' :: rest)
  | quoted {inside : Bool} {text rest : List Char} (htext : literal text) (h : Balanced literal inside rest) :
    Balanced literal inside ('"' :: (text ++ '"' :: rest))
  | group {inside : Bool} (bracket : Bracket) {inner rest : List Char} (hinner : Balanced literal true inner)
    (hend : bracket = .angle → inner.getLast? ≠ some '-') (h : Balanced literal inside rest) :
    Balanced literal inside (bracket.opening :: (inner ++ bracket.closing :: rest))

/-! ### Scans of fragments -/

namespace Scan

theorem previous_after (scan : Scan) (text : List Char) :
    (scan.after text).previous = text.getLast?.getD scan.previous := by
  induction text generalizing scan with
  | nil => rfl
  | cons c rest ih => rw [after_cons, ih, previous_step, List.getLast?_cons]; rfl

theorem previous_after_ne {scan : Scan} {text : List Char} {c : Char} (hscan : scan.previous ≠ c)
    (htext : text.getLast? ≠ some c) : (scan.after text).previous ≠ c := by
  rw [previous_after]
  cases hlast : text.getLast? with
  | none => exact hscan
  | some last => exact fun heq => htext (hlast.trans (congrArg some heq))

/-- The text has no comma at the top level and leads back to the level where it starts. -/
structure Passes (scan : Scan) (text : List Char) : Prop where
  whole : cutTopFrom ',' scan text = none
  level : (scan.after text).level = scan.level

variable {scan : Scan} {c : Char} {first second rest : List Char}

theorem passes_nil (scan : Scan) : scan.Passes [] :=
  ⟨rfl, rfl⟩

theorem Passes.append (hfirst : scan.Passes first) (hsecond : (scan.after first).Passes second) :
    scan.Passes (first ++ second) where
  whole := cutTopFrom_append_eq_none.mpr ⟨hfirst.whole, hsecond.whole⟩
  level := by rw [after_append, hsecond.level, hfirst.level]

theorem passes_singleton (hcomma : (scan.isTop && c == ',') = false) (hlevel : (scan.step c).level = scan.level) :
    scan.Passes [c] :=
  ⟨cutTopFrom_cons_eq_none.mpr ⟨hcomma, rfl⟩, hlevel⟩

theorem passes_ordinary (hc : isOrdinary c = true) (hcomma : (scan.isTop && c == ',') = false) : scan.Passes [c] :=
  passes_singleton hcomma (by rw [step_ordinary hc]; rfl)

/-- A pair of characters around a text, where the second takes back what the first does. -/
theorem passes_enclosed {opening closing : Char} {inner : List Char} (hopening : opening ≠ ',')
    (hclosing : closing ≠ ',') (hinner : (scan.step opening).Passes inner)
    (hlevel : (((scan.step opening).after inner).step closing).level = scan.level) :
    scan.Passes (opening :: (inner ++ [closing])) where
  whole := by
    refine cutTopFrom_cons_eq_none.mpr ⟨by simp [hopening], cutTopFrom_append_eq_none.mpr ⟨hinner.whole, ?_⟩⟩
    exact cutTopFrom_of_not_mem (by simpa using hclosing.symm) _
  level := by
    rw [after_cons, after_append]
    exact hlevel

theorem quoted_eq {other : Scan} (h : scan.level = other.level) : scan.quoted = other.quoted :=
  (Prod.mk.inj h).2

theorem depth_eq {other : Scan} (h : scan.level = other.level) : scan.depth = other.depth :=
  (Prod.mk.inj h).1

theorem isTop_of_quoted (h : scan.quoted = true) : scan.isTop = false := by
  rw [isTop, h]
  rfl

theorem isTop_of_depth (h : 0 < scan.depth) : scan.isTop = false := by
  rw [isTop, beq_false_of_ne (Nat.ne_of_gt h), Bool.and_false]

theorem level_step_opening (h : scan.quoted = false) (bracket : Bracket) :
    (scan.step bracket.opening).level = (scan.depth + 1, false) := by
  cases bracket <;> simp [step, h, Bracket.opening, level]

theorem level_step_closing (h : scan.quoted = false) {bracket : Bracket}
    (hend : bracket = .angle → scan.previous ≠ '-') :
    (scan.step bracket.closing).level = (scan.depth - 1, false) := by
  cases bracket with
  | angle => simp [step, h, Bracket.closing, level, hend rfl]
  | _ => simp [step, h, Bracket.closing, level]

theorem level_step_quote (h : scan.quoted = false) : (scan.step '"').level = (scan.depth, true) := by
  simp [step, h, level]

/-- A quote ends a literal unless a backslash stands before it. -/
theorem level_step_endQuote (h : scan.quoted = true) (hprevious : scan.previous ≠ '\\') :
    (scan.step '"').level = (scan.depth, false) := by
  simp [step, h, hprevious, level]

theorem passes_arrow (h : scan.quoted = false) : scan.Passes ['-', '>'] := by
  refine ⟨cutTopFrom_of_not_mem (by decide) scan, ?_⟩
  simp [step, h, level]

end Scan

section

variable {scan : Scan} {text : List Char}

/-- The scan is outside of literals, and in brackets if the text is to be `inside` of some. -/
structure Scan.Stands (inside : Bool) (scan : Scan) : Prop where
  unquoted : scan.quoted = false
  depth : inside = true → 0 < scan.depth

theorem Scan.Stands.after {inside : Bool} (h : scan.Stands inside) (htext : scan.Passes text) :
    (scan.after text).Stands inside :=
  ⟨(quoted_eq htext.level).trans h.unquoted, fun hinside => depth_eq htext.level ▸ h.depth hinside⟩

/-- In a literal a character changes the level only if it is a quote that is not escaped. -/
theorem Scan.passes_of_quoted {c : Char} (hquoted : scan.quoted = true) (hc : c = '"' → scan.previous = '\\') :
    scan.Passes [c] := by
  refine passes_singleton (by rw [isTop_of_quoted hquoted, Bool.false_and]) ?_
  have hopen : (!(c == '"' && scan.previous != '\\')) = true := by
    by_cases hquote : c = '"'
    · simp [hquote, hc hquote]
    · simp [hquote]
  rw [step, if_pos hquoted, hopen, ← hquoted]
  rfl

/-- A literal is open up to its end. -/
theorem LiteralText.passes (h : LiteralText text) (hquoted : scan.quoted = true) : scan.Passes text := by
  induction h generalizing scan with
  | nil => exact Scan.passes_nil scan
  | char hquote hescape h ih =>
    have hfirst := Scan.passes_of_quoted hquoted fun heq => absurd heq hquote
    exact hfirst.append (ih ((Scan.quoted_eq hfirst.level).trans hquoted))
  | escaped c h ih =>
    have hslash : scan.Passes ['\\'] := Scan.passes_of_quoted hquoted fun heq => absurd heq (by decide)
    have hopen := (Scan.quoted_eq hslash.level).trans hquoted
    have hescaped : (scan.after ['\\']).Passes [c] :=
      Scan.passes_of_quoted hopen fun _ => Scan.previous_step scan '\\'
    have hfirst := hslash.append hescaped
    exact hfirst.append (ih ((Scan.quoted_eq hfirst.level).trans hquoted))

/-- The closing quote is seen, since no backslash stands before it. -/
theorem Sealed.passes (h : Sealed text) (hscan : scan.quoted = false) : scan.Passes ('"' :: (text ++ ['"'])) := by
  obtain ⟨htext, hend⟩ := h
  obtain ⟨hdepth, hopen⟩ := Prod.mk.inj (Scan.level_step_quote hscan)
  have hinner := htext.passes hopen
  have hquote : (scan.step '"').previous ≠ '\\' := by
    rw [Scan.previous_step]
    decide
  have hprevious := Scan.previous_after_ne hquote hend
  refine Scan.passes_enclosed (by decide) (by decide) hinner ?_
  rw [Scan.level_step_endQuote ((Scan.quoted_eq hinner.level).trans hopen) hprevious, Scan.depth_eq hinner.level,
    hdepth, ← hscan]
  rfl

/-- A scan comes back from a balanced fragment to the level where it started, and meets no comma at the top level. -/
theorem Balanced.passes {inside : Bool} (h : Balanced Sealed inside text) (hscan : scan.Stands inside) :
    scan.Passes text := by
  induction h generalizing scan with
  | nil => exact Scan.passes_nil scan
  | @char inside c rest hc hcomma h ih =>
    have hfirst : scan.Passes [c] := by
      refine Scan.passes_ordinary hc ?_
      by_cases heq : c = ','
      · rw [Scan.isTop_of_depth (hscan.depth (hcomma heq)), Bool.false_and]
      · rw [beq_false_of_ne heq, Bool.and_false]
    exact hfirst.append (ih (hscan.after hfirst))
  | arrow h ih =>
    have hfirst := Scan.passes_arrow hscan.unquoted
    exact hfirst.append (ih (hscan.after hfirst))
  | quoted htext h ih =>
    have hfirst := htext.passes hscan.unquoted
    have hall := hfirst.append (ih (hscan.after hfirst))
    simpa using hall
  | @group inside bracket inner rest hinner hend h ihinner ih =>
    obtain ⟨hdepth, hquoted⟩ := Prod.mk.inj (Scan.level_step_opening hscan.unquoted bracket)
    have hpasses := ihinner ⟨hquoted, fun _ => hdepth ▸ Nat.succ_pos _⟩
    have hprevious : bracket = .angle → ((scan.step bracket.opening).after inner).previous ≠ '-' := by
      intro hangle
      refine Scan.previous_after_ne ?_ (hend hangle)
      rw [Scan.previous_step, hangle]
      decide
    have hfirst : scan.Passes (bracket.opening :: (inner ++ [bracket.closing])) := by
      refine Scan.passes_enclosed (by cases bracket <;> decide) (by cases bracket <;> decide) hpasses ?_
      rw [Scan.level_step_closing ((Scan.quoted_eq hpasses.level).trans hquoted) hprevious,
        Scan.depth_eq hpasses.level, hdepth, ← hscan.unquoted]
      rfl
    have hall := hfirst.append (ih (hscan.after hfirst))
    simpa using hall

end

/-! ### Lists of fragments -/

/-- A piece of a list: a trimmed fragment that is balanced and has no comma outside of brackets and literals. -/
structure IsPiece (literal : List Char → Prop) (piece : List Char) : Prop where
  nonempty : piece ≠ []
  trimmed : Trimmed piece
  balanced : Balanced literal false piece

/-- Balanced pieces, put together with commas and spaces, are split apart again, if none of their literals ends in
a backslash. -/
theorem splitTop_balanced (pieces : List (List Char)) (h : ∀ piece ∈ pieces, IsPiece Sealed piece) :
    splitTop ',' ([',', ' '].intercalate pieces) = pieces := by
  have hpasses : ∀ piece ∈ pieces, Scan.start.Passes piece := fun piece hpiece =>
    (h piece hpiece).balanced.passes ⟨rfl, fun hinside => absurd hinside (by decide)⟩
  have hapart : Apart ',' pieces := by
    refine ⟨fun piece hpiece => (hpasses piece hpiece).whole, ?_⟩
    refine List.Pairwise.imp_of_mem (fun hpiece _ _ => ?_) (List.pairwise_of_forall fun _ _ => trivial)
    exact Scan.isTop_eq (hpasses _ hpiece).level
  exact splitTop_intercalate_of_trimmed (by decide) hapart fun piece hpiece =>
    ⟨(h piece hpiece).trimmed, (h piece hpiece).nonempty⟩

/-- Commas inside of brackets and of a literal with an escaped quote, and an arrow between the two. -/
theorem splitTop_balanced_arrow :
    let pieces := [['<', 'a', ',', 'b', '>', '-', '>', '"', '\\', '"', ',', '"'], ['c']]
    (∀ piece ∈ pieces, IsPiece Sealed piece) ∧ splitTop ',' ([',', ' '].intercalate pieces) = pieces := by
  intro pieces
  have hliteral : Sealed ['\\', '"', ','] := ⟨.escaped '"' (.char (by decide) (by decide) .nil), by decide⟩
  have hgroup : Balanced Sealed true ['a', ',', 'b'] :=
    .char rfl (by decide) (.char rfl (by decide) (.char rfl (by decide) .nil))
  have hpieces : ∀ piece ∈ pieces, IsPiece Sealed piece := by
    intro piece hpiece
    rcases List.mem_cons.mp hpiece with rfl | hpiece
    · exact ⟨by decide, by decide, .group .angle hgroup (by decide) (.arrow (.quoted hliteral .nil))⟩
    · obtain rfl := List.mem_singleton.mp hpiece
      exact ⟨by decide, by decide, .char rfl (by decide) .nil⟩
  exact ⟨hpieces, splitTop_balanced pieces hpieces⟩

/-- A literal that holds a single escaped backslash is closed, but the scan takes its closing quote for an escaped
one and finds no comma after it. -/
theorem splitTop_escaped_backslash :
    let pieces := [['"', '\\', '\\', '"'], ['b']]
    (∀ piece ∈ pieces, IsPiece LiteralText piece) ∧
      splitTop ',' ([',', ' '].intercalate pieces) = [['"', '\\', '\\', '"', ',', ' ', 'b']] ∧
      splitTop ',' ([',', ' '].intercalate pieces) ≠ pieces := by
  intro pieces
  have hliteral : LiteralText ['\\', '\\'] := .escaped '\\' .nil
  refine ⟨fun piece hpiece => ?_, by decide, by decide⟩
  rcases List.mem_cons.mp hpiece with rfl | hpiece
  · exact ⟨by decide, by decide, .quoted hliteral .nil⟩
  · obtain rfl := List.mem_singleton.mp hpiece
    exact ⟨by decide, by decide, .char rfl (by decide) .nil⟩

end DocIndex.Text
