import DocIndex.Text.Bytes

/-! # Bytes of a text

Texts are ordered by their characters. The order of their UTF-8 bytes is the same (`le_iff_utf8_le`), because
a greater character has the greater byte at the first place where the two encodings differ. No byte of any other
character is a line feed, so line feeds can be counted in the bytes (`row_eq`). -/

namespace DocIndex.Text

/-- The UTF-8 bytes of a text. -/
def utf8 (text : String) : List UInt8 :=
  text.toUTF8.data.toList

theorem utf8_eq (text : String) : utf8 text = bytes text.toList := by
  conv => lhs; rw [← String.ofList_toList (s := text)]
  exact List.toList_data_toByteArray

/-! ### The bytes of a character -/

/-- A code point in groups of six bits, the first group with a mark for the number of those after it. -/
def sextets (lead : Nat) : Nat → Nat → List Nat
  | 0, n => [lead + n]
  | more + 1, n => sextets lead more (n / 64) ++ [0x80 + n % 64]

def byteValues (n : Nat) : List Nat :=
  if n ≤ 0x7f then sextets 0 0 n
  else if n ≤ 0x7ff then sextets 0xc0 1 n
  else if n ≤ 0xffff then sextets 0xe0 2 n
  else sextets 0xf0 3 n

theorem toNat_lt (c : Char) : c.val.toNat < 0x110000 := by
  rcases c.valid with h | h
  · exact Nat.lt_trans h (by decide)
  · exact h.2

theorem utf8EncodeChar_eq (c : Char) :
    String.utf8EncodeChar c = (byteValues c.val.toNat).map UInt8.ofNat := by
  have hvalid := toNat_lt c
  unfold String.utf8EncodeChar byteValues
  generalize c.val.toNat = n at hvalid
  by_cases hone : n ≤ 0x7f
  · simp [sextets, hone]
  by_cases htwo : n ≤ 0x7ff
  · have hlead : n / 64 % 0x20 = n / 64 := by omega
    simp [sextets, hone, htwo, hlead, Nat.add_comm]
  by_cases hthree : n ≤ 0xffff
  · have hlead : n / 4096 % 0x10 = n / 64 / 64 := by omega
    simp [sextets, hone, htwo, hthree, hlead, Nat.add_comm]
  · have hlead : n / 262144 % 0x08 = n / 64 / 64 / 64 := by omega
    have hnext : n / 4096 % 0x40 = n / 64 / 64 % 64 := by omega
    simp [sextets, hone, htwo, hthree, hlead, hnext, Nat.add_comm]

/-- At the first place where two lists differ, the second has a greater value, which is that of a byte. -/
def Below (first second : List Nat) : Prop :=
  ∃ shared x y rest others, first = shared ++ x :: rest ∧ second = shared ++ y :: others ∧ x < y ∧ y < 256

theorem Below.append {first second : List Nat} (h : Below first second) (more others : List Nat) :
    Below (first ++ more) (second ++ others) := by
  obtain ⟨shared, x, y, rest, rest', rfl, rfl, hlt, hbyte⟩ := h
  exact ⟨shared, x, y, rest ++ more, rest' ++ others, by simp, by simp, hlt, hbyte⟩

theorem below_sextets {lead m n : Nat} (more : Nat) (h : m < n)
    (hn : ∀ value ∈ sextets lead more n, value < 256) : Below (sextets lead more m) (sextets lead more n) := by
  induction more generalizing m n with
  | zero => exact ⟨[], lead + m, lead + n, [], [], rfl, rfl, by omega, hn _ List.mem_cons_self⟩
  | succ more ih =>
    rcases Nat.lt_or_eq_of_le (Nat.div_le_div_right (c := 64) (Nat.le_of_lt h)) with hlt | heq
    · exact (ih hlt fun value hvalue => hn value (List.mem_append_left _ hvalue)).append _ _
    · refine ⟨sextets lead more (m / 64), 0x80 + m % 64, 0x80 + n % 64, [], [], rfl, ?_, by omega, by omega⟩
      rw [heq]
      rfl

theorem below_of_head {x y : Nat} (hlt : x < y) (hbyte : y < 256) (rest others : List Nat) :
    Below (x :: rest) (y :: others) :=
  ⟨[], x, y, rest, others, rfl, rfl, hlt, hbyte⟩

theorem below_byteValues {m n : Nat} (h : m < n) (hn : n < 0x110000) : Below (byteValues m) (byteValues n) := by
  have hone {n : Nat} (h : n ≤ 0x7f) : byteValues n = sextets 0 0 n := if_pos h
  have htwo {n : Nat} (h : ¬n ≤ 0x7f) (h' : n ≤ 0x7ff) : byteValues n = sextets 0xc0 1 n := by
    rw [byteValues, if_neg h, if_pos h']
  have hthree {n : Nat} (h : ¬n ≤ 0x7ff) (h' : n ≤ 0xffff) : byteValues n = sextets 0xe0 2 n := by
    rw [byteValues, if_neg (by omega), if_neg h, if_pos h']
  have hfour {n : Nat} (h : ¬n ≤ 0xffff) : byteValues n = sextets 0xf0 3 n := by
    rw [byteValues, if_neg (by omega), if_neg (by omega), if_neg h]
  -- With as many bytes, the sextets decide; with more of them, the first byte does.
  by_cases hn₁ : n ≤ 0x7f
  · rw [hone hn₁, hone (by omega)]
    exact below_sextets 0 h (by simp only [sextets, List.forall_mem_singleton]; omega)
  by_cases hm₁ : m ≤ 0x7f
  · rw [hone hm₁]
    by_cases hn₂ : n ≤ 0x7ff
    · rw [htwo hn₁ hn₂]
      exact below_of_head (by omega) (by omega) _ _
    by_cases hn₃ : n ≤ 0xffff
    · rw [hthree hn₂ hn₃]
      exact below_of_head (by omega) (by omega) _ _
    · rw [hfour hn₃]
      exact below_of_head (by omega) (by omega) _ _
  by_cases hn₂ : n ≤ 0x7ff
  · rw [htwo hn₁ hn₂, htwo hm₁ (by omega)]
    refine below_sextets 1 h ?_
    simp only [sextets, List.forall_mem_append, List.forall_mem_singleton]
    omega
  by_cases hm₂ : m ≤ 0x7ff
  · rw [htwo hm₁ hm₂]
    by_cases hn₃ : n ≤ 0xffff
    · rw [hthree hn₂ hn₃]
      exact below_of_head (by omega) (by omega) _ _
    · rw [hfour hn₃]
      exact below_of_head (by omega) (by omega) _ _
  by_cases hn₃ : n ≤ 0xffff
  · rw [hthree hn₂ hn₃, hthree hm₂ (by omega)]
    refine below_sextets 2 h ?_
    simp only [sextets, List.forall_mem_append, List.forall_mem_singleton]
    omega
  rw [hfour hn₃]
  by_cases hm₃ : m ≤ 0xffff
  · rw [hthree hm₂ hm₃]
    exact below_of_head (by omega) (by omega) _ _
  · rw [hfour hm₃]
    refine below_sextets 3 h ?_
    simp only [sextets, List.forall_mem_append, List.forall_mem_singleton]
    omega

theorem lineFeed_not_mem_utf8EncodeChar {c : Char} (h : c ≠ '\n') : lineFeed ∉ String.utf8EncodeChar c := by
  have hvalid := toNat_lt c
  have hcode : c.val.toNat ≠ 10 := fun hcode => h (Char.ext (UInt32.toNat.inj hcode))
  have hvalues : ∀ value ∈ byteValues c.val.toNat, value < 256 ∧ value ≠ 10 := by
    unfold byteValues
    generalize c.val.toNat = n at hvalid hcode
    repeat' split
    all_goals simp only [sextets, List.forall_mem_append, List.forall_mem_singleton]; omega
  rw [utf8EncodeChar_eq, List.mem_map]
  rintro ⟨value, hvalue, hbyte⟩
  obtain ⟨hlt, hne⟩ := hvalues value hvalue
  have hnat := congrArg UInt8.toNat hbyte
  rw [UInt8.toNat_ofNat', Nat.mod_eq_of_lt hlt] at hnat
  exact hne hnat

/-! ### The bytes of a text -/

theorem bytes_cons (c : Char) (rest : List Char) : bytes (c :: rest) = String.utf8EncodeChar c ++ bytes rest :=
  List.flatMap_cons

theorem length_bytes (text : List Char) : (bytes text).length = byteLength text := by
  induction text with
  | nil => rfl
  | cons c rest ih => rw [bytes_cons, List.length_append, String.length_utf8EncodeChar, ih, byteLength]

/-- The line feeds before a byte, counted in bytes. -/
theorem row_eq (text : List Char) (offset : Nat) : row text offset = ((bytes text).take offset).count lineFeed := by
  rw [row]
  induction text generalizing offset with
  | nil => cases offset <;> rfl
  | cons c rest ih =>
    cases offset with
    | zero => rfl
    | succ offset =>
      rw [takeBytes, List.count_cons, ih, bytes_cons, List.take_append, List.count_append,
        String.length_utf8EncodeChar, Nat.add_comm]
      congr 1
      by_cases hc : c = '\n'
      · subst hc
        have hbytes : String.utf8EncodeChar '\n' = [lineFeed] := rfl
        simp [hbytes]
      · have hnone : lineFeed ∉ (String.utf8EncodeChar c).take (offset + 1) := fun hmem =>
          lineFeed_not_mem_utf8EncodeChar hc (List.mem_of_mem_take hmem)
        simp [hc, List.count_eq_zero.mpr hnone]

theorem Below.map_lt {first second : List Nat} (h : Below first second) (more others : List UInt8) :
    first.map UInt8.ofNat ++ more < second.map UInt8.ofNat ++ others := by
  obtain ⟨shared, x, y, rest, rest', rfl, rfl, hlt, hbyte⟩ := h
  have hbytes : UInt8.ofNat x < UInt8.ofNat y := by
    rw [UInt8.lt_iff_toNat_lt, UInt8.toNat_ofNat', UInt8.toNat_ofNat']
    omega
  rw [List.map_append, List.map_append, List.append_assoc, List.append_assoc]
  exact List.append_left_lt (.rel hbytes)

theorem bytes_lt {first second : List Char} (h : first < second) : bytes first < bytes second := by
  induction h with
  | @nil c rest =>
    rw [bytes_cons]
    cases hbytes : String.utf8EncodeChar c with
    | nil => exact absurd hbytes String.utf8EncodeChar_ne_nil
    | cons byte bytes => exact .nil
  | @rel c rest d others hlt =>
    rw [bytes_cons, bytes_cons, utf8EncodeChar_eq, utf8EncodeChar_eq]
    exact (below_byteValues hlt (toNat_lt d)).map_lt _ _
  | @cons c rest others _ ih =>
    rw [bytes_cons, bytes_cons]
    exact List.append_left_lt ih

theorem utf8_lt_iff {first second : String} : utf8 first < utf8 second ↔ first < second := by
  rw [utf8_eq, utf8_eq]
  constructor
  · intro hbytes
    refine String.not_le.mp fun hle => ?_
    by_cases heq : first = second
    · subst heq
      exact List.lt_irrefl _ hbytes
    · have hlt : second < first := String.not_le.mp fun hge => heq (String.le_antisymm hge hle)
      exact List.lt_asymm hbytes (bytes_lt hlt)
  · exact bytes_lt

/-- Texts are in order exactly if their bytes are. -/
theorem le_iff_utf8_le {first second : String} : first ≤ second ↔ utf8 first ≤ utf8 second := by
  rw [← String.not_lt, ← utf8_lt_iff, List.not_lt]

end DocIndex.Text
