import DocIndex.Location
import DocIndex.Proofs.Text.ByteOrder
import DocIndex.Proofs.Tree.Fault

/-! # Lines and columns

The table lists where lines start: at the first byte and after every line feed (`startsAfter_eq`). The search by halving
ends in the slot where an offset belongs (`fits_slot`), whether a line starts there or not, and so at the last line that
starts at or before it (`start_le_iff`). Line and column are then what counting line feeds and the bytes after the last
of them gives (`line_locate`, `column_locate`). They tell the offset that was located (`offset_eq`) and grow with it
(`locate_lt`). -/

namespace DocIndex

open Text

/-- The slot is where the offset belongs. -/
def LineSlot.Fits (starts : Array Nat) (offset : Nat) : LineSlot → Prop
  | start index => index < starts.size ∧ starts.getD index 0 = offset
  | inside index =>
    index ≤ starts.size ∧ (0 < index → starts.getD (index - 1) 0 < offset) ∧
      (index < starts.size → offset < starts.getD index 0)

namespace LineTable

/-! ### Where lines start -/

/-- The offsets right after the line feeds of some bytes that begin at `offset`. -/
def byteStarts (offset : Nat) : List UInt8 → List Nat
  | [] => []
  | byte :: rest =>
    if byte = lineFeed then (offset + 1) :: byteStarts (offset + 1) rest else byteStarts (offset + 1) rest

theorem byteStarts_append {first : List UInt8} (h : lineFeed ∉ first) (offset : Nat) (rest : List UInt8) :
    byteStarts offset (first ++ rest) = byteStarts (offset + first.length) rest := by
  induction first generalizing offset with
  | nil => rfl
  | cons byte first ih =>
    rw [List.mem_cons, not_or] at h
    rw [List.cons_append, byteStarts, if_neg (Ne.symm h.1), ih h.2, List.length_cons, Nat.add_right_comm, Nat.add_assoc]

theorem startsAfter_eq (offset : Nat) (source : List Char) :
    startsAfter offset source = byteStarts offset (bytes source) := by
  induction source generalizing offset with
  | nil => rfl
  | cons c rest ih =>
    rw [startsAfter, bytes_cons]
    by_cases hc : c = '\n'
    · subst hc
      rw [if_pos rfl, ih]
      rfl
    · rw [if_neg hc, ih, byteStarts_append (lineFeed_not_mem_utf8EncodeChar hc), String.length_utf8EncodeChar]

theorem mem_byteStarts {offset start : Nat} {data : List UInt8} :
    start ∈ byteStarts offset data ↔ ∃ i, data[i]? = some lineFeed ∧ start = offset + i + 1 := by
  induction data generalizing offset with
  | nil => simp [byteStarts]
  | cons byte rest ih =>
    have hlater : (∃ i, rest[i]? = some lineFeed ∧ start = offset + 1 + i + 1) ↔
        ∃ i, (byte :: rest)[i + 1]? = some lineFeed ∧ start = offset + (i + 1) + 1 := by
      simp only [List.getElem?_cons_succ, Nat.add_right_comm offset 1, Nat.add_assoc offset]
    rw [byteStarts]
    split
    next hbyte =>
      rw [List.mem_cons, ih, hlater]
      constructor
      · rintro (rfl | ⟨i, hi⟩)
        · exact ⟨0, by simp [hbyte], rfl⟩
        · exact ⟨i + 1, hi⟩
      · rintro ⟨_ | i, hi⟩
        · exact .inl hi.2
        · exact .inr ⟨i, hi⟩
    next hbyte =>
      rw [ih, hlater]
      constructor
      · rintro ⟨i, hi⟩
        exact ⟨i + 1, hi⟩
      · rintro ⟨_ | i, hi⟩
        · exact absurd (Option.some.inj hi.1) hbyte
        · exact ⟨i, hi⟩

theorem lt_of_mem_byteStarts {offset start : Nat} {data : List UInt8} (h : start ∈ byteStarts offset data) :
    offset < start := by
  obtain ⟨i, -, rfl⟩ := mem_byteStarts.mp h
  omega

theorem pairwise_byteStarts (offset : Nat) (data : List UInt8) : (byteStarts offset data).Pairwise (· < ·) := by
  induction data generalizing offset with
  | nil => exact .nil
  | cons byte rest ih =>
    rw [byteStarts]
    split
    · exact .cons (fun _ => lt_of_mem_byteStarts) (ih _)
    · exact ih _

/-- As many lines start within the first bytes as these hold line feeds. -/
theorem countP_byteStarts (offset place : Nat) (data : List UInt8) :
    (byteStarts offset data).countP (· ≤ offset + place) = (data.take place).count lineFeed := by
  induction data generalizing offset place with
  | nil => simp [byteStarts]
  | cons byte rest ih =>
    cases place with
    | zero =>
      rw [List.take_zero, List.count_nil, List.countP_eq_zero]
      intro start hstart
      have hlt := lt_of_mem_byteStarts hstart
      simp
      omega
    | succ place =>
      have hrest := ih (offset + 1) place
      rw [Nat.add_right_comm, Nat.add_assoc] at hrest
      rw [byteStarts, List.take_succ_cons, List.count_cons]
      split
      next hbyte => simp [hbyte, hrest]
      next hbyte => simp [hbyte, hrest]

/-! ### The search -/

/-- The search by halving ends in the right slot, if the lines next to the window lie on their sides of the offset. -/
theorem fits_search {starts : Array Nat} {offset low high : Nat} (hle : low ≤ high) (hhigh : high ≤ starts.size)
    (hbelow : 0 < low → starts.getD (low - 1) 0 < offset)
    (habove : high < starts.size → offset < starts.getD high 0) :
    (search starts offset low high).Fits starts offset := by
  fun_induction search starts offset low high with
  | case1 low high hsome middle start hstart => exact ⟨by omega, hstart⟩
  | case2 low high hsome middle start _ hless ih => exact ih (by omega) hhigh (fun _ => hless) habove
  | case3 low high hsome middle start hne hless ih => exact ih (by omega) (by omega) hbelow fun _ => by omega
  | case4 low high hnone =>
    obtain rfl : high = low := by omega
    exact ⟨hhigh, hbelow, habove⟩

theorem fits_slot (table : LineTable) (offset : Nat) : (table.slot offset).Fits table.starts offset :=
  fits_search (Nat.zero_le _) (Nat.le_refl _) (fun h => absurd h (Nat.lt_irrefl _)) fun h => absurd h (Nat.lt_irrefl _)

/-! ### Locations -/

/-- So many values of an ascending list are small as its first places say. -/
theorem countP_le_eq {values : List Nat} {bound n : Nat} (hn : n ≤ values.length)
    (h : ∀ i (hi : i < values.length), values[i] ≤ bound ↔ i < n) : values.countP (· ≤ bound) = n := by
  rw [← List.take_append_drop n values, List.countP_append]
  have hsmall : (values.take n).countP (· ≤ bound) = (values.take n).length := by
    rw [List.countP_eq_length]
    intro value hvalue
    obtain ⟨i, hi, rfl⟩ := List.mem_iff_getElem.mp hvalue
    rw [List.length_take] at hi
    rw [List.getElem_take, decide_eq_true_eq, h i (by omega)]
    omega
  have hlarge : (values.drop n).countP (· ≤ bound) = 0 := by
    rw [List.countP_eq_zero]
    intro value hvalue
    obtain ⟨i, hi, rfl⟩ := List.mem_iff_getElem.mp hvalue
    rw [List.length_drop] at hi
    rw [List.getElem_drop, decide_eq_true_eq, h (n + i) (by omega)]
    omega
  rw [hsmall, hlarge, List.length_take]
  omega

section

variable (file : String) (source : List Char) (offset : Nat)

@[simp] theorem file_locate : ((ofSource file source).locate offset).file = file := rfl

theorem toList_starts : (ofSource file source).starts.toList = 0 :: byteStarts 0 (bytes source) := by
  rw [ofSource, startsAfter_eq]

theorem mem_starts {start : Nat} :
    start ∈ (ofSource file source).starts.toList ↔
      start = 0 ∨ ∃ i, (bytes source)[i]? = some lineFeed ∧ start = i + 1 := by
  rw [toList_starts, List.mem_cons, mem_byteStarts]
  simp

theorem start_lt_start {i j : Nat} (h : i < j) (hj : j < (ofSource file source).starts.size) :
    (ofSource file source).starts.getD i 0 < (ofSource file source).starts.getD j 0 := by
  have hpairwise : (ofSource file source).starts.toList.Pairwise (· < ·) := by
    rw [toList_starts]
    exact .cons (fun _ => lt_of_mem_byteStarts) (pairwise_byteStarts 0 _)
  have hlt := List.pairwise_iff_getElem.mp hpairwise i j (by simp; omega) (by simpa using hj) h
  simpa [Array.getD, hj, Nat.lt_trans h hj] using hlt

theorem start_le_start {i j : Nat} (h : i ≤ j) (hj : j < (ofSource file source).starts.size) :
    (ofSource file source).starts.getD i 0 ≤ (ofSource file source).starts.getD j 0 := by
  rcases Nat.lt_or_eq_of_le h with hlt | rfl
  · exact Nat.le_of_lt (start_lt_start file source hlt hj)
  · exact Nat.le_refl _

theorem start_zero : (ofSource file source).starts.getD 0 0 = 0 := by
  simp [ofSource]

theorem size_starts_pos : 0 < (ofSource file source).starts.size := by
  simp [ofSource]

/-- Some line starts before an offset inside a line. -/
theorem pos_of_slot {index : Nat} (h : (ofSource file source).slot offset = .inside index) : 0 < index := by
  have hfits := fits_slot (ofSource file source) offset
  rw [h] at hfits
  obtain ⟨-, -, habove⟩ := hfits
  refine Nat.pos_of_ne_zero ?_
  rintro rfl
  have hbefore := habove (size_starts_pos file source)
  rw [start_zero] at hbefore
  exact absurd hbefore (Nat.not_lt_zero offset)

/-- The line of a slot is in the table and starts at or before the offset, and the next one starts after it. -/
theorem line_slot :
    ((ofSource file source).slot offset).line < (ofSource file source).starts.size ∧
      (ofSource file source).starts.getD ((ofSource file source).slot offset).line 0 ≤ offset ∧
      (((ofSource file source).slot offset).line + 1 < (ofSource file source).starts.size →
        offset < (ofSource file source).starts.getD (((ofSource file source).slot offset).line + 1) 0) := by
  have hfits := fits_slot (ofSource file source) offset
  cases hslot : (ofSource file source).slot offset with
  | start index =>
    rw [hslot] at hfits
    obtain ⟨hindex, hstart⟩ := hfits
    refine ⟨hindex, Nat.le_of_eq hstart, fun hnext => ?_⟩
    have hlater := start_lt_start file source (Nat.lt_succ_self index) hnext
    rwa [hstart] at hlater
  | inside index =>
    rw [hslot] at hfits
    obtain ⟨hindex, hbelow, habove⟩ := hfits
    have hpos := pos_of_slot file source offset hslot
    have hnext : index - 1 + 1 = index := Nat.sub_add_cancel hpos
    refine ⟨by simp only [LineSlot.line]; omega, Nat.le_of_lt (hbelow hpos), ?_⟩
    rw [LineSlot.line, hnext]
    exact habove

/-- The column counts from the start of the line, so the two together give the offset back. -/
theorem offset_eq :
    min offset (byteLength source) =
      (ofSource file source).starts.getD (((ofSource file source).locate offset).line - 1) 0 +
        (((ofSource file source).locate offset).column - 1) := by
  obtain ⟨-, hstart, -⟩ := line_slot file source (min offset (byteLength source))
  exact (Nat.add_sub_of_le hstart).symm

/-- The line that was found is in the table, and the next one starts after the offset. -/
theorem line_locate_le :
    ((ofSource file source).locate offset).line ≤ (ofSource file source).starts.size ∧
      (((ofSource file source).locate offset).line < (ofSource file source).starts.size →
        min offset (byteLength source) <
          (ofSource file source).starts.getD ((ofSource file source).locate offset).line 0) := by
  obtain ⟨hindex, -, hnext⟩ := line_slot file source (min offset (byteLength source))
  exact ⟨hindex, hnext⟩

theorem line_locate_pos : 0 < ((ofSource file source).locate offset).line :=
  Nat.succ_pos _

theorem column_locate_pos : 0 < ((ofSource file source).locate offset).column :=
  Nat.succ_pos _

/-- The search never reads past the table. -/
theorem exists_start :
    ∃ start ∈ (ofSource file source).starts.toList,
      (ofSource file source).starts[((ofSource file source).locate offset).line - 1]? = some start ∧
      min offset (byteLength source) = start + (((ofSource file source).locate offset).column - 1) := by
  have hoffset := offset_eq file source offset
  have hline := (line_locate_le file source offset).1
  have hpos := line_locate_pos file source offset
  have hsize : ((ofSource file source).locate offset).line - 1 < (ofSource file source).starts.size := by omega
  rw [Array.getD, dif_pos hsize] at hoffset
  exact ⟨_, Array.mem_toList_iff.mpr (Array.getElem_mem hsize), Array.getElem?_eq_getElem hsize, hoffset⟩

theorem locate_min :
    (ofSource file source).locate (min offset (byteLength source)) = (ofSource file source).locate offset := by
  simp only [locate, ofSource, Nat.min_assoc, Nat.min_self]

/-- The lines up to the one that was found are those that start at or before the offset. -/
theorem start_le_iff {i : Nat} (hi : i < (ofSource file source).starts.size) :
    (ofSource file source).starts.getD i 0 ≤ min offset (byteLength source) ↔
      i < ((ofSource file source).locate offset).line := by
  obtain ⟨hle, hnext⟩ := line_locate_le file source offset
  constructor
  · intro hstart
    refine Nat.lt_of_not_le fun hline => ?_
    have hlater := start_le_start file source hline hi
    have hafter := hnext (Nat.lt_of_le_of_lt hline hi)
    omega
  · intro hline
    have hoffset := offset_eq file source offset
    have hearlier := start_le_start file source (Nat.le_sub_one_of_lt hline) (by omega)
    omega

theorem line_locate :
    ((ofSource file source).locate offset).line =
      1 + ((bytes source).take (min offset (byteLength source))).count lineFeed := by
  have hline := (line_locate_le file source offset).1
  rw [← Array.length_toList] at hline
  have hcount := countP_le_eq hline fun i hi => by
    rw [← start_le_iff file source offset (by simpa using hi), Array.getElem_toList, Array.getD, dif_pos]
    rfl
  have hstarts := countP_byteStarts 0 (min offset (byteLength source)) (bytes source)
  rw [toList_starts, List.countP_cons_of_pos (by simp)] at hcount
  rw [Nat.zero_add] at hstarts
  rw [← hcount, hstarts, Nat.add_comm]

/-- No line starts after the one that was found and at or before the offset. -/
theorem le_start_of_mem {start : Nat} (hmem : start ∈ (ofSource file source).starts.toList)
    (hstart : start ≤ min offset (byteLength source)) :
    start ≤ (ofSource file source).starts.getD (((ofSource file source).locate offset).line - 1) 0 := by
  obtain ⟨i, hi, rfl⟩ := List.mem_iff_getElem.mp hmem
  have hsize : i < (ofSource file source).starts.size := by simpa using hi
  have hvalue : (ofSource file source).starts.toList[i] = (ofSource file source).starts.getD i 0 := by
    simp [Array.getD, hsize]
  rw [hvalue] at hstart ⊢
  have hline := (start_le_iff file source offset hsize).mp hstart
  have hle := (line_locate_le file source offset).1
  exact start_le_start file source (Nat.le_sub_one_of_lt hline) (by omega)

end

/-- The bytes after the last line feed. -/
theorem length_takeWhile_reverse {first second : List UInt8} (hsecond : lineFeed ∉ second)
    (hfirst : first = [] ∨ ∃ more, first = more ++ [lineFeed]) :
    ((first ++ second).reverse.takeWhile (· != lineFeed)).length = second.length := by
  have hpass : ∀ byte ∈ second.reverse, (byte != lineFeed) = true := fun byte hbyte => by
    rw [bne_iff_ne]
    rintro rfl
    exact hsecond (List.mem_reverse.mp hbyte)
  rw [List.reverse_append, List.takeWhile_append_of_pos hpass]
  rcases hfirst with rfl | ⟨more, rfl⟩ <;> simp

theorem column_locate (file : String) (source : List Char) (offset : Nat) :
    ((ofSource file source).locate offset).column =
      1 + (((bytes source).take (min offset (byteLength source))).reverse.takeWhile (· != lineFeed)).length := by
  obtain ⟨start, hmem, hstart, hoffset⟩ := exists_start file source offset
  have hpos := column_locate_pos file source offset
  have hlength := length_bytes source
  have hlast : ∀ other ∈ (ofSource file source).starts.toList, other ≤ min offset (byteLength source) →
      other ≤ start := fun other hother hle => by
    have hlater := le_start_of_mem file source offset hother hle
    rwa [Array.getD_eq_getD_getElem?, hstart, Option.getD_some] at hlater
  generalize ((ofSource file source).locate offset).column = column at hoffset hpos ⊢
  have hsplit : (bytes source).take (min offset (byteLength source)) =
      (bytes source).take start ++ ((bytes source).drop start).take (column - 1) := by
    rw [hoffset, List.take_add]
  -- A line feed after the start of the line would start a line of its own before the offset.
  have hnone : lineFeed ∉ ((bytes source).drop start).take (column - 1) := fun hfeed => by
    obtain ⟨i, hi, hbyte⟩ := List.mem_iff_getElem.mp hfeed
    rw [List.length_take] at hi
    rw [List.getElem_take, List.getElem_drop] at hbyte
    have hlater := hlast (start + i + 1)
      ((mem_starts file source).mpr (.inr ⟨start + i, List.getElem?_eq_some_iff.mpr ⟨_, hbyte⟩, rfl⟩)) (by omega)
    omega
  have hends : (bytes source).take start = [] ∨ ∃ more, (bytes source).take start = more ++ [lineFeed] := by
    rcases (mem_starts file source).mp hmem with rfl | ⟨i, hbyte, rfl⟩
    · exact .inl List.take_zero
    · exact .inr ⟨(bytes source).take i, by rw [List.take_add_one, hbyte]; rfl⟩
  rw [hsplit, length_takeWhile_reverse hnone hends, List.length_take, List.length_drop]
  omega

/-- Line and column grow with the offset, the line first. -/
theorem locate_lt {file : String} {source : List Char} {a b : Nat} (h : a < b) (hb : b ≤ byteLength source) :
    Prod.Lex (· < ·) (· < ·)
      (((ofSource file source).locate a).line, ((ofSource file source).locate a).column)
      (((ofSource file source).locate b).line, ((ofSource file source).locate b).column) := by
  have hfirst := offset_eq file source a
  have hsecond := offset_eq file source b
  have hcolumn := column_locate_pos file source a
  have hpos := line_locate_pos file source a
  have hline := (line_locate_le file source a).1
  have hle : ((ofSource file source).locate a).line ≤ ((ofSource file source).locate b).line := by
    have hreached := (start_le_iff file source b
      (by omega : ((ofSource file source).locate a).line - 1 < (ofSource file source).starts.size)).mp (by omega)
    omega
  rcases Nat.lt_or_eq_of_le hle with hlt | heq
  · exact .left _ _ hlt
  · rw [heq] at hfirst ⊢
    exact .right _ (by omega)

theorem locate_injective {file : String} {source : List Char} {a b : Nat} (ha : a ≤ byteLength source)
    (hb : b ≤ byteLength source)
    (hline : ((ofSource file source).locate a).line = ((ofSource file source).locate b).line)
    (hcolumn : ((ofSource file source).locate a).column = ((ofSource file source).locate b).column) :
    a = b := by
  have hoffset := offset_eq file source a
  rw [hline, hcolumn, ← offset_eq file source b, Nat.min_eq_left ha, Nat.min_eq_left hb] at hoffset
  exact hoffset

theorem position_ofOffset (file : String) (source : List Char) {offset : Nat} (h : offset ≤ byteLength source) :
    Position.ofOffset source offset =
      ⟨((ofSource file source).locate offset).line, ((ofSource file source).locate offset).column⟩ := by
  rw [line_locate, column_locate, Nat.min_eq_left h, Position.ofOffset, row_eq, column,
    Nat.add_comm 1, Nat.add_comm 1]

/-- Within the text, line and column grow with the offset, so no two offsets share both. A location counts the line
feeds before its offset and the bytes after the last of them, as the refusal of a fault there does. Its line is in the
table and starts at or before the offset; where the search hits no start, a line stands before the place it ends at. -/
theorem locate_counts (file : String) (source : List Char) :
    (∀ a b, a < b → b ≤ (bytes source).length →
      Prod.Lex (· < ·) (· < ·)
        (((ofSource file source).locate a).line, ((ofSource file source).locate a).column)
        (((ofSource file source).locate b).line, ((ofSource file source).locate b).column)) ∧
    (∀ a b, a ≤ (bytes source).length → b ≤ (bytes source).length →
      ((ofSource file source).locate a).line = ((ofSource file source).locate b).line →
      ((ofSource file source).locate a).column = ((ofSource file source).locate b).column → a = b) ∧
    ∀ offset,
      let place := min offset (bytes source).length
      let before := (bytes source).take place
      let location := (ofSource file source).locate offset
      location.offset = place ∧
      location.line = 1 + before.count lineFeed ∧
      location.column = 1 + (before.reverse.takeWhile (· != lineFeed)).length ∧
      (∃ start, (ofSource file source).starts[location.line - 1]? = some start ∧ start ≤ place ∧
        location.column = place - start + 1) ∧
      (∀ index, (ofSource file source).slot place = .inside index → 0 < index) ∧
      ∀ tree node, tree.firstFault? = some node → node.start = place →
        (Document.mk source tree).accept false = .error ⟨location.line, location.column⟩ := by
  simp only [length_bytes]
  refine ⟨fun a b => locate_lt, fun a b => locate_injective, fun offset => ?_⟩
  refine ⟨rfl, line_locate file source offset, column_locate file source offset, ?_,
    fun index => pos_of_slot file source _, ?_⟩
  · obtain ⟨start, -, hstart, hoffset⟩ := exists_start file source offset
    have hcolumn := column_locate_pos file source offset
    exact ⟨start, hstart, by omega, by omega⟩
  · intro tree node hfault hstart
    have hinside : node.start ≤ byteLength source := hstart ▸ Nat.min_le_right ..
    rw [Document.accept_of_firstFault? hfault, position_ofOffset file source hinside, hstart, locate_min]

end LineTable

end DocIndex
