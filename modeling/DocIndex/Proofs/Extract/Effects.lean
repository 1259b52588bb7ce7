import Mathlib.Data.List.TakeWhile
import DocIndex.Extract.Callable
import DocIndex.Proofs.Text.Boundary
import DocIndex.Proofs.Text.Piece

/-! # Effects and comments

Effects are read from the nodes of a header and from the words of its text, and the text holds the comments of the
header too. What stands outside of these is the same whatever the comments say, and beyond it nothing counts but the
words of the comments (`Extract.effects_eq`). So comments change the effects of a callable by the words `async`,
`throws` and `rethrows` alone (`Extract.effects_apart`). -/

namespace DocIndex.Extract

open Text

/-- Whether a character parts the words of a header. -/
def partsHeader (c : Char) : Bool :=
  isBlank c || c == '('

/-! ### Text with comments in it -/

/-- A comment from its start to its end: it starts with a slash, and ends with one or before something that parts
words, as a line comment does before the end of its line. -/
structure ClosedComment (source : List Char) (comment : Node) : Prop where
  start : (comment.text source).head? = some '/'
  stop : (comment.text source).getLast? = some '/' ∨
    ∀ next ∈ (dropBytes comment.stop source).head?, partsHeader next = true

instance (source : List Char) (comment : Node) : Decidable (ClosedComment source comment) :=
  decidable_of_iff
    ((comment.text source).head? = some '/' ∧ ((comment.text source).getLast? = some '/' ∨
      (dropBytes comment.stop source).head?.all partsHeader = true))
    ⟨fun h => ⟨h.1, h.2.imp_right (Option.all_eq_true _ _).mp⟩,
      fun h => ⟨h.start, h.stop.imp_right (Option.all_eq_true _ _).mpr⟩⟩

/-- The text between two bytes, with a slash in the place of each of the given comments. -/
def textApart (source : List Char) (stop : Nat) : Nat → List Node → List Char
  | start, [] => slice source start stop
  | start, comment :: rest => slice source start comment.start ++ '/' :: textApart source stop comment.stop rest

/-- Comments stand between two bytes one after another, all at places between characters. -/
inductive Strung (source : List Char) (stop : Nat) : Nat → List Node → Prop
  | nil {start : Nat} (hstart : IsBoundary source start) (hstop : IsBoundary source stop) (hle : start ≤ stop) :
      Strung source stop start []
  | cons {start : Nat} {comment : Node} {rest : List Node} (hstart : IsBoundary source start)
      (hcomment : IsBoundary source comment.start) (hle : start ≤ comment.start)
      (hspan : comment.start ≤ comment.stop) (hclosed : ClosedComment source comment)
      (hrest : Strung source stop comment.stop rest) : Strung source stop start (comment :: rest)

variable {source other : List Char} {start stop : Nat} {comments : List Node} {word : List Char}

theorem Strung.isBoundary_start (h : Strung source stop start comments) : IsBoundary source start := by
  cases h <;> assumption

theorem Strung.isBoundary_stop (h : Strung source stop start comments) : IsBoundary source stop := by
  induction h with
  | nil _ hstop _ => exact hstop
  | cons _ _ _ _ _ _ ih => exact ih

theorem Strung.le (h : Strung source stop start comments) : start ≤ stop := by
  induction h with
  | nil _ _ hle => exact hle
  | cons _ _ hle hspan _ _ ih => omega

theorem Strung.lt_start (h : Strung source stop start comments) {offset : Nat} (hlt : offset < start) :
    ∀ comment ∈ comments, offset < comment.start := by
  induction h with
  | nil _ _ _ => exact List.forall_mem_nil _
  | cons _ _ hle hspan _ _ ih => exact List.forall_mem_cons.mpr ⟨by omega, ih (by omega)⟩

/-- The words of a text are those outside its comments and those of the comments, as far as they have no slash. -/
theorem Strung.mem_pieces_iff (h : Strung source stop start comments) (hword : '/' ∉ word) (left : List Char) :
    word ∈ (left ++ slice source start stop).splitOnP partsHeader ↔
      word ∈ (left ++ textApart source stop start comments).splitOnP partsHeader ∨
        ∃ comment ∈ comments, word ∈ (comment.text source).splitOnP partsHeader := by
  induction h generalizing left with
  | nil _ _ _ => simp [textApart]
  | @cons start comment rest hstart hcomment hle hspan hclosed hrest ih =>
    have hsplit : slice source start stop =
        slice source start comment.start ++ (comment.text source ++ slice source comment.stop stop) := by
      have hlater := Nat.le_trans hspan hrest.le
      rw [slice_append hstart hcomment hrest.isBoundary_stop hle hlater,
        slice_append hcomment hrest.isBoundary_start hrest.isBoundary_stop hspan hrest.le]
      rfl
    have hstop : (comment.text source).getLast? = some '/' ∨
        ∀ next ∈ (slice source comment.stop stop).head?, partsHeader next = true :=
      hclosed.stop.imp_right fun hnext next hmem => hnext next (head?_slice hmem)
    have hstretch := mem_splitOnP_stretch (by decide) hword hclosed.start hstop
      (left ++ slice source start comment.start)
    have hrest := ih (left ++ slice source start comment.start ++ ['/'])
    simp only [List.append_assoc, List.singleton_append] at hstretch hrest
    simp only [hsplit, hstretch, hrest, textApart, List.mem_cons, exists_eq_or_imp, or_assoc,
      or_comm (a := ∃ c ∈ _, _)]

/-- The text outside of comments is the same in two sources that differ in comments alone. -/
theorem Strung.textApart_congr (h : Strung source stop start comments) (hother : Strung other stop start comments)
    (hbytes : ∀ offset, start ≤ offset → offset < stop →
      (∀ comment ∈ comments, offset < comment.start ∨ comment.stop ≤ offset) →
      (bytes other)[offset]? = (bytes source)[offset]?) :
    textApart other stop start comments = textApart source stop start comments := by
  induction h with
  | nil hstart hstop hle =>
    refine slice_congr hother.isBoundary_start hother.isBoundary_stop hstart hstop hle fun offset hge hlt => ?_
    exact hbytes offset hge hlt (List.forall_mem_nil _)
  | @cons start comment rest hstart hcomment hle hspan _ hrest ih =>
    cases hother with
    | cons hstart' hcomment' _ _ _ hrest' =>
      have hend := hrest.le
      have hbefore : slice other start comment.start = slice source start comment.start := by
        refine slice_congr hstart' hcomment' hstart hcomment hle fun offset hge hlt => ?_
        have hlater := hrest.lt_start (Nat.lt_of_lt_of_le hlt hspan)
        refine hbytes offset hge (by omega) (List.forall_mem_cons.mpr ⟨.inl hlt, fun c hc => .inl (hlater c hc)⟩)
      have hafter := ih hrest' fun offset hge hlt hapart =>
        hbytes offset (by omega) hlt (List.forall_mem_cons.mpr ⟨.inr hge, hapart⟩)
      rw [textApart, textApart, hbefore, hafter]

/-! ### Headers -/

/-- The last closing parenthesis before the arrow or body. -/
def headerParen? (node : Node) : Option Node :=
  (node.children.takeWhile (!endsEffects ·)).reverse.find? (·.kind == .closeParen)

/-- The children between that parenthesis and the arrow or body. -/
def headerNodes (node : Node) : List Node :=
  ((node.children.takeWhile (!endsEffects ·)).reverse.takeWhile (·.kind != .closeParen)).reverse

/-- The byte at which the arrow or body starts. -/
def headerStop (node : Node) : Nat :=
  ((node.children.find? endsEffects).map (·.start)).getD node.stop

def headerComments (node : Node) : List Node :=
  (headerNodes node).filter (·.kind.isComment)

/-- The words of the comments in a header. -/
def commentWords (source : List Char) (node : Node) : List (List Char) :=
  (headerComments node).flatMap fun comment => (comment.text source).splitOnP partsHeader

/-- The effects of a header by its nodes and the words found in it. -/
def headerEffects (source : List Char) (node : Node) (found : List (List Char)) : Effects where
  isAsync := (headerNodes node).any (·.kind == .asyncKeyword) || found.contains "async".toList
  throws := ((headerNodes node).reverse.find? isThrows).map (·.compactString source) <|> throwsAmong found

/-- The effects that a header shows outside of its comments, if some words stand there besides. -/
def effectsBeside (source : List Char) (node : Node) (more : List (List Char)) : Effects :=
  match headerParen? node with
  | none => ⟨false, none⟩
  | some close =>
    headerEffects source node
      ((textApart source (headerStop node) close.stop (headerComments node)).splitOnP partsHeader ++ more)

/-- The words that make a difference. -/
def effectWords : List (List Char) :=
  ["async".toList, "throws".toList, "rethrows".toList]

/-- The children of a node lie over a source as its parse leaves them: one after another, between characters, and
every comment from its start to its end. -/
structure Laid (source : List Char) (node : Node) : Prop where
  ordered : node.children.Pairwise fun child next => child.stop ≤ next.start
  spans : ∀ child ∈ node.children, child.start ≤ child.stop ∧ child.stop ≤ node.stop
  boundaries : ∀ child ∈ node.children, IsBoundary source child.start ∧ IsBoundary source child.stop
  stop : IsBoundary source node.stop
  comments : ∀ child ∈ node.children, child.kind.isComment = true → ClosedComment source child

instance (source : List Char) (node : Node) : Decidable (Laid source node) :=
  decidable_of_iff
    ((node.children.Pairwise fun child next => child.stop ≤ next.start) ∧
      (∀ child ∈ node.children, child.start ≤ child.stop ∧ child.stop ≤ node.stop) ∧
      (∀ child ∈ node.children, IsBoundary source child.start ∧ IsBoundary source child.stop) ∧
      IsBoundary source node.stop ∧
      ∀ child ∈ node.children, child.kind.isComment = true → ClosedComment source child)
    ⟨fun h => ⟨h.1, h.2.1, h.2.2.1, h.2.2.2.1, h.2.2.2.2⟩,
      fun h => ⟨h.ordered, h.spans, h.boundaries, h.stop, h.comments⟩⟩

/-- Two sources of one length differ in the comments of a node alone. -/
structure AgreeApart (source other : List Char) (node : Node) : Prop where
  length : byteLength other = byteLength source
  bytes : ∀ offset,
    (∀ child ∈ node.children, child.kind.isComment = true → offset < child.start ∨ child.stop ≤ offset) →
    (bytes other)[offset]? = (bytes source)[offset]?

theorem agreeApart_iff {node : Node} :
    AgreeApart source other node ↔ byteLength other = byteLength source ∧ ∀ offset < byteLength source,
      (∀ child ∈ node.children, child.kind.isComment = true → offset < child.start ∨ child.stop ≤ offset) →
      (bytes other)[offset]? = (bytes source)[offset]? := by
  refine ⟨fun h => ⟨h.length, fun offset _ => h.bytes offset⟩, fun h => ⟨h.1, fun offset hapart => ?_⟩⟩
  rcases Nat.lt_or_ge offset (byteLength source) with hlt | hge
  · exact h.2 offset hlt hapart
  · rw [List.getElem?_eq_none (by rw [length_bytes]; omega), List.getElem?_eq_none (by rw [length_bytes]; omega)]

instance (source other : List Char) (node : Node) : Decidable (AgreeApart source other node) :=
  decidable_of_iff _ agreeApart_iff.symm

variable {node close : Node}

/-- The children of a callable around its header. -/
theorem exists_header (h : headerParen? node = some close) :
    ∃ front rest, node.children = front ++ close :: (headerNodes node ++ rest) ∧
      headerStop node = (rest.head?.map (·.start)).getD node.stop := by
  obtain ⟨hclose, after, front, hheader, hafter⟩ := List.find?_eq_some_iff_append.mp h
  have hnodes : headerNodes node = after.reverse := by
    have hall : ∀ child ∈ after, (child.kind != .closeParen) = true := fun child hchild => by
      simpa using hafter child hchild
    rw [headerNodes, hheader, List.takeWhile_append_of_pos hall, List.takeWhile_cons_of_neg (by simpa using hclose),
      List.append_nil]
  have hfront : node.children.takeWhile (!endsEffects ·) = front.reverse ++ close :: headerNodes node := by
    rw [hnodes, ← List.reverse_reverse (node.children.takeWhile _), hheader]
    simp
  refine ⟨front.reverse, node.children.dropWhile (!endsEffects ·), ?_, ?_⟩
  · rw [← List.cons_append, ← List.append_assoc, ← hfront, List.takeWhile_append_dropWhile]
  · rw [headerStop, List.find?_eq_head?_dropWhile_not]

theorem strung_filter {nodes : List Node} (hstart : IsBoundary source start) (hstop : IsBoundary source stop)
    (hle : start ≤ stop) (hordered : nodes.Pairwise fun child next => child.stop ≤ next.start)
    (hspans : ∀ child ∈ nodes, start ≤ child.start ∧ child.start ≤ child.stop ∧ child.stop ≤ stop)
    (hboundaries : ∀ child ∈ nodes, IsBoundary source child.start ∧ IsBoundary source child.stop)
    (hcomments : ∀ child ∈ nodes, child.kind.isComment = true → ClosedComment source child) :
    Strung source stop start (nodes.filter (·.kind.isComment)) := by
  induction nodes generalizing start with
  | nil => exact .nil hstart hstop hle
  | cons child rest ih =>
    obtain ⟨hnext, hordered⟩ := List.pairwise_cons.mp hordered
    obtain ⟨⟨hbefore, hspan, hinside⟩, hspans⟩ := List.forall_mem_cons.mp hspans
    obtain ⟨⟨hfirst, hlast⟩, hboundaries⟩ := List.forall_mem_cons.mp hboundaries
    obtain ⟨hclosed, hcomments⟩ := List.forall_mem_cons.mp hcomments
    rw [List.filter_cons]
    split
    next hcomment =>
      refine .cons hstart hfirst hbefore hspan (hclosed hcomment) (ih hlast hinside hordered ?_ hboundaries hcomments)
      exact fun other hother => ⟨hnext other hother, (hspans other hother).2⟩
    next => exact ih hstart hle hordered hspans hboundaries hcomments

/-- Where the children around a header stand: those before it end before it, and those after it start after it. -/
structure Around (node close : Node) (front rest : List Node) : Prop where
  before : ∀ child ∈ front, child.stop ≤ close.stop
  close_le : close.stop ≤ headerStop node
  inside : ∀ child ∈ headerNodes node, close.stop ≤ child.start ∧ child.stop ≤ headerStop node
  after : ∀ child ∈ rest, headerStop node ≤ child.start

theorem Laid.around (h : Laid source node) {front rest : List Node}
    (hchildren : node.children = front ++ close :: (headerNodes node ++ rest))
    (hstop : headerStop node = (rest.head?.map (·.start)).getD node.stop) : Around node close front rest := by
  have hordered := h.ordered
  have hspans := h.spans
  rw [hchildren] at hordered hspans
  obtain ⟨-, hclose, hfront⟩ := List.pairwise_append.mp hordered
  obtain ⟨hlater, hrest⟩ := List.pairwise_cons.mp hclose
  obtain ⟨-, hrest, hbetween⟩ := List.pairwise_append.mp hrest
  obtain ⟨-, hspans⟩ := List.forall_mem_append.mp hspans
  obtain ⟨hclose, hspans⟩ := List.forall_mem_cons.mp hspans
  obtain ⟨hinside, hspans⟩ := List.forall_mem_append.mp hspans
  have hbefore : ∀ child ∈ front, child.stop ≤ close.stop := fun child hchild =>
    Nat.le_trans (hfront child hchild close List.mem_cons_self) hclose.1
  cases rest with
  | nil =>
    have hstop : headerStop node = node.stop := hstop
    rw [List.append_nil] at hlater
    exact ⟨hbefore, by omega, fun child hchild => ⟨hlater child hchild, hstop ▸ (hinside child hchild).2⟩,
      List.forall_mem_nil _⟩
  | cons first more =>
    have hstop : headerStop node = first.start := hstop
    have hfirst := hlater first (List.mem_append_right _ List.mem_cons_self)
    obtain ⟨hnext, -⟩ := List.pairwise_cons.mp hrest
    refine ⟨hbefore, by omega, fun child hchild => ⟨hlater child (List.mem_append_left _ hchild), ?_⟩,
      List.forall_mem_cons.mpr ⟨Nat.le_of_eq hstop, fun child hchild => ?_⟩⟩
    · exact hstop ▸ hbetween child hchild first List.mem_cons_self
    · have hspan := (hspans first List.mem_cons_self).1
      have hchild := hnext child hchild
      omega

theorem Laid.isBoundary_headerStop (h : Laid source node) : IsBoundary source (headerStop node) := by
  rw [headerStop]
  cases hfind : node.children.find? endsEffects with
  | none => exact h.stop
  | some child => exact (h.boundaries child (List.mem_of_find?_eq_some hfind)).1

theorem Laid.strung (h : Laid source node) (hparen : headerParen? node = some close) :
    Strung source (headerStop node) close.stop (headerComments node) := by
  obtain ⟨front, rest, hchildren, hstop⟩ := exists_header hparen
  have haround := h.around hchildren hstop
  have hmem : ∀ child ∈ headerNodes node, child ∈ node.children := fun child hchild => by
    simp [hchildren, hchild]
  have hclose : close ∈ node.children := by simp [hchildren]
  have hordered := h.ordered
  rw [hchildren] at hordered
  obtain ⟨-, hordered, -⟩ := List.pairwise_append.mp hordered
  obtain ⟨hordered, -, -⟩ := List.pairwise_append.mp (List.pairwise_cons.mp hordered).2
  refine strung_filter (h.boundaries close hclose).2 h.isBoundary_headerStop haround.close_le hordered
    (fun child hchild => ?_) (fun child hchild => h.boundaries child (hmem child hchild))
    fun child hchild => h.comments child (hmem child hchild)
  obtain ⟨hafter, hbefore⟩ := haround.inside child hchild
  exact ⟨hafter, (h.spans child (hmem child hchild)).1, hbefore⟩

/-! ### What comments change -/

theorem slash_not_mem (h : word ∈ effectWords) : '/' ∉ word := by
  simp only [effectWords, List.mem_cons, List.not_mem_nil, or_false] at h
  rcases h with rfl | rfl | rfl <;> decide

theorem throwsAmong_congr {found more : List (List Char)}
    (h : ∀ word ∈ effectWords, word ∈ found ↔ word ∈ more) : throwsAmong found = throwsAmong more := by
  have hthrows := h "throws".toList (by decide)
  have hrethrows := h "rethrows".toList (by decide)
  simp only [throwsAmong, List.find?_cons, List.find?_nil, List.contains_eq_mem, hthrows, hrethrows]

theorem headerEffects_congr {found more : List (List Char)} (h : ∀ word ∈ effectWords, word ∈ found ↔ word ∈ more) :
    headerEffects source node found = headerEffects source node more := by
  have hasync := h "async".toList (by decide)
  rw [headerEffects, headerEffects, throwsAmong_congr h]
  simp only [List.contains_eq_mem, hasync]

theorem effects_eq_headerEffects (hparen : headerParen? node = some close) :
    effects source node =
      headerEffects source node ((slice source close.stop (headerStop node)).splitOnP partsHeader) := by
  rw [headerParen?] at hparen
  simp only [effects, hparen, headerEffects, headerNodes, List.reverse_reverse, List.any_reverse]
  rfl

theorem effectsBeside_of_none (hparen : headerParen? node = none) (more : List (List Char)) :
    effectsBeside source node more = ⟨false, none⟩ := by
  rw [effectsBeside, hparen]

theorem effectsBeside_of_some (hparen : headerParen? node = some close) (more : List (List Char)) :
    effectsBeside source node more =
      headerEffects source node
        ((textApart source (headerStop node) close.stop (headerComments node)).splitOnP partsHeader ++ more) := by
  rw [effectsBeside, hparen]

/-- The effects of a header are those that it shows outside of its comments, with the words of the comments. -/
theorem effects_eq (h : Laid source node) :
    effects source node = effectsBeside source node (commentWords source node) := by
  cases hparen : headerParen? node with
  | none =>
    rw [effectsBeside_of_none hparen]
    rw [headerParen?] at hparen
    simp only [effects, hparen]
  | some close =>
    rw [effects_eq_headerEffects hparen, effectsBeside_of_some hparen]
    refine headerEffects_congr fun word hword => ?_
    have hpieces := (h.strung hparen).mem_pieces_iff (slash_not_mem hword) []
    rw [List.nil_append, List.nil_append] at hpieces
    rw [hpieces, List.mem_append, commentWords, List.mem_flatMap]

theorem effectsBeside_congr {more found : List (List Char)} (h : ∀ word ∈ effectWords, word ∈ more ↔ word ∈ found) :
    effectsBeside source node more = effectsBeside source node found := by
  cases hparen : headerParen? node with
  | none => rw [effectsBeside_of_none hparen, effectsBeside_of_none hparen]
  | some close =>
    rw [effectsBeside_of_some hparen, effectsBeside_of_some hparen]
    refine headerEffects_congr fun word hword => ?_
    rw [List.mem_append, List.mem_append, h word hword]

/-- A child that is no comment reads the same in both sources. -/
theorem AgreeApart.text_eq (hagree : AgreeApart source other node) (h : Laid source node) (hother : Laid other node)
    {child : Node} (hchild : child ∈ node.children) (hkind : child.kind.isComment = false) :
    child.text other = child.text source := by
  obtain ⟨hstart, hstop⟩ := h.boundaries child hchild
  obtain ⟨hstart', hstop'⟩ := hother.boundaries child hchild
  refine slice_congr hstart' hstop' hstart hstop (h.spans child hchild).1 fun offset hge hlt => ?_
  refine hagree.bytes offset fun comment hcomment hkind' => ?_
  obtain ⟨front, back, hchildren⟩ := List.append_of_mem hchild
  have hordered := h.ordered
  rw [hchildren] at hordered hcomment
  obtain ⟨-, hback, hfront⟩ := List.pairwise_append.mp hordered
  rcases List.mem_append.mp hcomment with hcomment | hcomment
  · have hbefore := hfront comment hcomment child List.mem_cons_self
    exact .inr (by omega)
  rcases List.mem_cons.mp hcomment with rfl | hcomment
  · rw [hkind] at hkind'
    cases hkind'
  · have hafter := (List.pairwise_cons.mp hback).1 comment hcomment
    exact .inl (by omega)

theorem AgreeApart.textApart_eq (hagree : AgreeApart source other node) (h : Laid source node)
    (hother : Laid other node) (hparen : headerParen? node = some close) :
    textApart other (headerStop node) close.stop (headerComments node) =
      textApart source (headerStop node) close.stop (headerComments node) := by
  obtain ⟨front, rest, hchildren, hstop⟩ := exists_header hparen
  have haround := h.around hchildren hstop
  refine (h.strung hparen).textApart_congr (hother.strung hparen) fun offset hge hlt hapart => ?_
  refine hagree.bytes offset fun comment hcomment hkind => ?_
  rw [hchildren] at hcomment
  rcases List.mem_append.mp hcomment with hcomment | hcomment
  · exact .inr (Nat.le_trans (haround.before comment hcomment) hge)
  rcases List.mem_cons.mp hcomment with rfl | hcomment
  · exact .inr hge
  rcases List.mem_append.mp hcomment with hcomment | hcomment
  · exact hapart comment (List.mem_filter.mpr ⟨hcomment, hkind⟩)
  · exact .inl (Nat.lt_of_lt_of_le hlt (haround.after comment hcomment))

theorem AgreeApart.effectsBeside_eq (hagree : AgreeApart source other node) (h : Laid source node)
    (hother : Laid other node) (more : List (List Char)) :
    effectsBeside other node more = effectsBeside source node more := by
  cases hparen : headerParen? node with
  | none => rw [effectsBeside_of_none hparen, effectsBeside_of_none hparen]
  | some close =>
    have hthrows : ((headerNodes node).reverse.find? isThrows).map (·.compactString other) =
        ((headerNodes node).reverse.find? isThrows).map (·.compactString source) := by
      refine Option.map_congr fun child hchild => ?_
      have hmem : child ∈ headerNodes node := List.mem_reverse.mp (List.mem_of_find?_eq_some hchild)
      have hkind : child.kind.isComment = false := by
        have hthrows := List.find?_some hchild
        simp only [isThrows, Bool.or_eq_true, beq_iff_eq] at hthrows
        rcases hthrows with hkind | hkind <;> rw [hkind] <;> rfl
      obtain ⟨front, rest, hchildren, -⟩ := exists_header hparen
      have htext := hagree.text_eq h hother (by simp [hchildren, hmem]) hkind
      rw [Node.compactString, Node.compactString, Node.compactText, Node.compactText, htext]
    rw [effectsBeside_of_some hparen, effectsBeside_of_some hparen, hagree.textApart_eq h hother hparen, headerEffects,
      headerEffects, hthrows]

/-- Sources that differ in comments alone give a callable the same effects as far as the nodes of its header and the
text outside of its comments show them. The comments add the words that they hold, and nothing else about them counts.
So the effects are the same if the comments of both hold the same of the words `async`, `throws` and `rethrows`, in
particular if they hold none of them. -/
theorem effects_apart (h : Laid source node) (hother : Laid other node) (hagree : AgreeApart source other node) :
    effects source node = effectsBeside source node (commentWords source node) ∧
      effects other node = effectsBeside source node (commentWords other node) ∧
      ((∀ word ∈ effectWords, word ∈ commentWords source node ↔ word ∈ commentWords other node) →
        effects source node = effects other node) := by
  have hsource := effects_eq h
  have hbeside := (effects_eq hother).trans (hagree.effectsBeside_eq h hother _)
  exact ⟨hsource, hbeside, fun hwords => hsource.trans ((effectsBeside_congr hwords).trans hbeside.symm)⟩

open Node in
/-- A block comment before the keyword and a line comment after it. -/
theorem effects_apart_throws :
    let source := "f() /* xyz */ throws // not\n\x7b\x7d".toList
    let other := "f() /* (q) */ throws // now\n\x7b\x7d".toList
    let node := Node.mk (bare .functionDeclaration 0 30).info
      [bare .simpleIdentifier 0 1, bare .openParen 1 2, bare .closeParen 2 3, bare .blockComment 4 13,
        bare .throwsKeyword 14 20, bare .comment 21 27, bare .functionBody 28 30]
    Laid source node ∧ Laid other node ∧ AgreeApart source other node ∧ effects source node = ⟨false, some "throws"⟩ ∧
      effects source node = effects other node := by
  intro source other node
  have hsource : Laid source node := by decide +kernel
  have hother : Laid other node := by decide +kernel
  have hagree : AgreeApart source other node := by decide +kernel
  obtain ⟨-, -, hequal⟩ := effects_apart hsource hother hagree
  exact ⟨hsource, hother, hagree, by decide +kernel, hequal (by decide +kernel)⟩

open Node in
/-- A word in a comment counts as an effect. -/
theorem effects_async_comment :
    let source := "func f() /* async */ throws \x7b\x7d".toList
    let other := "func f() /* ----- */ throws \x7b\x7d".toList
    let node := Node.mk (bare .functionDeclaration 0 30).info
      [bare .funcKeyword 0 4, bare .simpleIdentifier 5 6, bare .openParen 6 7, bare .closeParen 7 8,
        bare .blockComment 9 20, bare .throwsKeyword 21 27, bare .functionBody 28 30]
    Laid source node ∧ Laid other node ∧ AgreeApart source other node ∧
      effects source node = ⟨true, some "throws"⟩ ∧ effects other node = ⟨false, some "throws"⟩ := by
  decide +kernel

end DocIndex.Extract
