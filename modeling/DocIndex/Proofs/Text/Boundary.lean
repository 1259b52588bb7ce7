import DocIndex.Proofs.Text.ByteOrder

/-! # Places between characters

A byte offset is a boundary if it falls between two characters. Between boundaries a slice is what it is meant to be:
slices can be put together (`slice_append`), their bytes are those of the text (`bytes_slice`), and equal bytes make
equal slices (`slice_congr`). -/

namespace DocIndex.Text

variable {text other : List Char} {start middle stop : Nat}

/-- A byte offset falls between two characters of the text, or at one of its ends. -/
def IsBoundary (text : List Char) (offset : Nat) : Prop :=
  ∃ front back, text = front ++ back ∧ byteLength front = offset

theorem byteLength_append (first second : List Char) :
    byteLength (first ++ second) = byteLength first + byteLength second := by
  induction first with
  | nil => simp [byteLength]
  | cons c rest ih => simp only [List.cons_append, byteLength, ih]; omega

theorem bytes_append (first second : List Char) : bytes (first ++ second) = bytes first ++ bytes second :=
  List.flatMap_append

theorem exists_byteLength_cons (c : Char) (rest : List Char) :
    ∃ more, byteLength (c :: rest) = more + 1 ∧ more + 1 - c.utf8Size = byteLength rest := by
  have hsize := c.utf8Size_pos
  exact ⟨c.utf8Size + byteLength rest - 1, by rw [byteLength]; omega, by omega⟩

theorem eq_nil_of_byteLength {text : List Char} (h : byteLength text = 0) : text = [] := by
  cases text with
  | nil => rfl
  | cons c rest =>
    obtain ⟨more, hmore, -⟩ := exists_byteLength_cons c rest
    rw [hmore] at h
    cases h

theorem takeBytes_append (front back : List Char) : takeBytes (byteLength front) (front ++ back) = front := by
  induction front with
  | nil => rw [byteLength, takeBytes]
  | cons c rest ih =>
    obtain ⟨more, hmore, hrest⟩ := exists_byteLength_cons c rest
    rw [hmore, List.cons_append, takeBytes, hrest, ih]

theorem dropBytes_append (front back : List Char) : dropBytes (byteLength front) (front ++ back) = back := by
  induction front with
  | nil => rw [byteLength, dropBytes, List.nil_append]
  | cons c rest ih =>
    obtain ⟨more, hmore, hrest⟩ := exists_byteLength_cons c rest
    rw [hmore, List.cons_append, dropBytes, hrest, ih]

theorem takeBytes_append_dropBytes (offset : Nat) (text : List Char) :
    takeBytes offset text ++ dropBytes offset text = text := by
  induction text generalizing offset with
  | nil => cases offset <;> rfl
  | cons c rest ih =>
    cases offset with
    | zero => rfl
    | succ offset => rw [takeBytes, dropBytes, List.cons_append, ih]

theorem isBoundary_iff {offset : Nat} : IsBoundary text offset ↔ byteLength (takeBytes offset text) = offset := by
  constructor
  · rintro ⟨front, back, rfl, rfl⟩
    rw [takeBytes_append]
  · exact fun h => ⟨_, _, (takeBytes_append_dropBytes offset text).symm, h⟩

instance (text : List Char) (offset : Nat) : Decidable (IsBoundary text offset) :=
  decidable_of_iff _ isBoundary_iff.symm

/-- Two boundaries cut a text in three. -/
theorem exists_parts (hstart : IsBoundary text start) (hstop : IsBoundary text stop) (hle : start ≤ stop) :
    ∃ front part back, text = front ++ (part ++ back) ∧ byteLength front = start ∧
      start + byteLength part = stop := by
  obtain ⟨front, rest, rfl, rfl⟩ := hstart
  obtain ⟨whole, back, heq, rfl⟩ := hstop
  rcases List.append_eq_append_iff.mp heq with ⟨part, rfl, rfl⟩ | ⟨part, rfl, rfl⟩
  · exact ⟨front, part, back, rfl, rfl, (byteLength_append front part).symm⟩
  · -- The second boundary is not before the first, so nothing stands between them.
    rw [byteLength_append] at hle
    obtain rfl : part = [] := eq_nil_of_byteLength (by omega)
    exact ⟨whole, [], rest, by simp, by simp, by simp [byteLength]⟩

theorem slice_parts (front part back : List Char) :
    slice (front ++ (part ++ back)) (byteLength front) (byteLength front + byteLength part) = part := by
  have hinside : byteLength front + byteLength part ≤ byteLength (front ++ (part ++ back)) := by
    rw [byteLength_append, byteLength_append]
    omega
  rw [slice, if_pos hinside, dropBytes_append, Nat.add_sub_cancel_left, takeBytes_append]

theorem slice_append (hstart : IsBoundary text start) (hmiddle : IsBoundary text middle) (hstop : IsBoundary text stop)
    (hle : start ≤ middle) (hle' : middle ≤ stop) :
    slice text start stop = slice text start middle ++ slice text middle stop := by
  obtain ⟨front, first, rest, rfl, rfl, rfl⟩ := exists_parts hstart hmiddle hle
  obtain ⟨whole, second, back, heq, hwhole, rfl⟩ := exists_parts hmiddle hstop hle'
  have hfront : whole = front ++ first ∧ second ++ back = rest := by
    have htake := takeBytes_append whole (second ++ back)
    have hdrop := dropBytes_append whole (second ++ back)
    rw [hwhole, ← heq, ← List.append_assoc, ← byteLength_append] at htake hdrop
    rw [takeBytes_append] at htake
    rw [dropBytes_append] at hdrop
    exact ⟨htake.symm, hdrop.symm⟩
  obtain ⟨-, rfl⟩ := hfront
  have hboth := slice_parts front (first ++ second) back
  have hsecond := slice_parts (front ++ first) second back
  rw [byteLength_append, List.append_assoc] at hboth
  rw [byteLength_append, List.append_assoc] at hsecond
  rw [slice_parts, hsecond, Nat.add_assoc, hboth]

theorem bytes_slice (hstart : IsBoundary text start) (hstop : IsBoundary text stop) (hle : start ≤ stop) :
    bytes (slice text start stop) = ((bytes text).drop start).take (stop - start) := by
  obtain ⟨front, part, back, rfl, rfl, rfl⟩ := exists_parts hstart hstop hle
  rw [slice_parts, bytes_append, bytes_append, ← length_bytes, List.drop_left, Nat.add_sub_cancel_left,
    ← length_bytes, List.take_left]

theorem bytes_injective (h : bytes text = bytes other) : text = other := by
  have hutf8 : utf8 (String.ofList text) = utf8 (String.ofList other) := by
    rw [utf8_eq, utf8_eq, String.toList_ofList, String.toList_ofList, h]
  have hbytes : (String.ofList text).toByteArray = (String.ofList other).toByteArray :=
    ByteArray.ext (Array.toList_inj.mp hutf8)
  exact String.ofList_injective (String.toByteArray_inj.mp hbytes)

theorem slice_congr (hstart : IsBoundary text start) (hstop : IsBoundary text stop) (hstart' : IsBoundary other start)
    (hstop' : IsBoundary other stop) (hle : start ≤ stop)
    (h : ∀ offset, start ≤ offset → offset < stop → (bytes text)[offset]? = (bytes other)[offset]?) :
    slice text start stop = slice other start stop := by
  refine bytes_injective ?_
  rw [bytes_slice hstart hstop hle, bytes_slice hstart' hstop' hle]
  refine List.ext_getElem? fun i => ?_
  rw [List.getElem?_take, List.getElem?_take, List.getElem?_drop, List.getElem?_drop]
  split
  next hi => exact h (start + i) (by omega) (by omega)
  next => rfl

theorem head?_slice {c : Char} (h : (slice text start stop).head? = some c) :
    (dropBytes start text).head? = some c := by
  rw [slice] at h
  split at h
  next =>
    cases hrest : dropBytes start text with
    | nil => rw [hrest] at h; cases hsize : stop - start <;> rw [hsize, takeBytes] at h <;> cases h
    | cons d rest =>
      rw [hrest] at h
      cases hsize : stop - start with
      | zero => rw [hsize, takeBytes] at h; cases h
      | succ size => rw [hsize, takeBytes] at h; exact h
  next => cases h

end DocIndex.Text
