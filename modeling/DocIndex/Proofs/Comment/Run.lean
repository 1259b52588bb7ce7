import DocIndex.Comment

/-! # The comments above a node

A sibling is attached to the one after it if it is a documentation comment on lines of its own that end
right above. The comments above a node are the longest run of siblings before it in which each is attached
to the next, the last one to the node (`Comment.run_eq`), and their texts are its documentation
(`Comment.above?_eq`). -/

namespace DocIndex

theorem NodeKind.isComment_iff {kind : NodeKind} :
    kind.isComment = true ↔ kind = .comment ∨ kind = .blockComment := by
  cases kind <;> simp [NodeKind.isComment]

namespace Comment

variable {source : List Char}

/-! ### Lines of their own -/

/-- Nothing but blanks stands between the last line feed before a byte, or the start of the source, and that
byte. -/
def StandsAlone (source : List Char) (offset : Nat) : Prop :=
  ∃ line, (∀ c ∈ line, c ≠ '\n' ∧ Text.isBlank c = true) ∧
    (Text.takeBytes offset source = line ∨ ∃ above, Text.takeBytes offset source = above ++ '\n' :: line)

theorem newline_not_mem_lineBefore (source : List Char) (offset : Nat) :
    '\n' ∉ Text.lineBefore source offset := by
  intro hmem
  rw [Text.lineBefore, List.mem_reverse] at hmem
  exact absurd (List.all_eq_true.mp List.all_takeWhile '\n' hmem) (by decide)

theorem takeBytes_eq_lineBefore (source : List Char) (offset : Nat) :
    Text.takeBytes offset source = Text.lineBefore source offset ∨
      ∃ above, Text.takeBytes offset source = above ++ '\n' :: Text.lineBefore source offset := by
  have hsplit := List.takeWhile_append_dropWhile (p := (· != '\n')) (l := (Text.takeBytes offset source).reverse)
  have hfirst := List.head?_dropWhile_not (· != '\n') (Text.takeBytes offset source).reverse
  have hbefore : Text.takeBytes offset source =
      ((Text.takeBytes offset source).reverse.dropWhile (· != '\n')).reverse ++
        Text.lineBefore source offset := by
    rw [Text.lineBefore, ← List.reverse_append, hsplit, List.reverse_reverse]
  cases hrest : (Text.takeBytes offset source).reverse.dropWhile (· != '\n') with
  | nil => exact .inl (by rw [hrest] at hbefore; exact hbefore)
  | cons c above =>
    rw [hrest] at hfirst
    have hc : c = '\n' := by simpa using hfirst
    refine .inr ⟨above.reverse, ?_⟩
    rw [hrest, hc, List.reverse_cons, List.append_assoc] at hbefore
    exact hbefore

theorem lineBefore_eq {offset : Nat} {line : List Char} (hline : '\n' ∉ line)
    (h : Text.takeBytes offset source = line ∨ ∃ above, Text.takeBytes offset source = above ++ '\n' :: line) :
    Text.lineBefore source offset = line := by
  have hall : ∀ c ∈ line.reverse, (c != '\n') = true := by
    intro c hc
    simpa using fun heq : c = '\n' => hline (heq ▸ List.mem_reverse.mp hc)
  rcases h with h | ⟨above, h⟩
  · rw [Text.lineBefore, h, ← List.append_nil line.reverse, List.takeWhile_append_of_pos hall]
    simp
  · rw [Text.lineBefore, h, List.reverse_append, List.reverse_cons, List.append_assoc,
      List.takeWhile_append_of_pos hall]
    simp

theorem standsAlone_iff {offset : Nat} : standsAlone source offset = true ↔ StandsAlone source offset := by
  rw [standsAlone, Text.isBlankText, List.all_eq_true]
  constructor
  · intro hblank
    refine ⟨Text.lineBefore source offset, fun c hc => ⟨?_, hblank c hc⟩, takeBytes_eq_lineBefore source offset⟩
    rintro rfl
    exact newline_not_mem_lineBefore source offset hc
  · rintro ⟨line, hline, hbytes⟩ c hc
    rw [lineBefore_eq (fun hmem => (hline _ hmem).1 rfl) hbytes] at hc
    exact (hline c hc).2

/-! ### Runs -/

/-- A sibling is a documentation comment for what starts with the node after it: it stands on lines of its
own, and the last of them is at most one above the node. -/
structure Attached (source : List Char) (sibling next : Node) : Prop where
  kind : sibling.kind = .comment ∨ sibling.kind = .blockComment
  alone : StandsAlone source sibling.start
  documentation : isDocumentation (sibling.text source) = true
  adjacent : Text.row source next.start - 1 ≤ Text.row source sibling.stop

theorem belongsTo_iff {sibling next : Node} :
    belongsTo source (Text.row source next.start) sibling = true ↔ Attached source sibling next := by
  simp only [belongsTo, Bool.and_eq_true, decide_eq_true_eq, NodeKind.isComment_iff, standsAlone_iff]
  constructor
  · rintro ⟨⟨⟨hkind, hrow⟩, halone⟩, hdocumentation⟩
    exact ⟨hkind, halone, hdocumentation, by omega⟩
  · rintro ⟨hkind, halone, hdocumentation, hrow⟩
    exact ⟨⟨⟨hkind, by omega⟩, halone⟩, hdocumentation⟩

/-- Of the siblings before a node, each from the `first` on is attached to the one after it, and the last one
to the node. -/
def Leads (source : List Char) (siblings : List Node) (node : Node) (first : Nat) : Prop :=
  first ≤ siblings.length ∧ ∀ i (h : i < siblings.length), first ≤ i →
    Attached source siblings[i] (siblings.getD (i + 1) node)

theorem leads_length (source : List Char) (siblings : List Node) (node : Node) :
    Leads source siblings node siblings.length :=
  ⟨Nat.le_refl _, fun _ hlt hle => absurd hlt (Nat.not_lt_of_le hle)⟩

theorem leads_concat {siblings : List Node} {last node : Node} {first : Nat} (h : first ≤ siblings.length) :
    Leads source (siblings ++ [last]) node first ↔ Attached source last node ∧ Leads source siblings last first := by
  have hnext (i : Nat) (hi : i < siblings.length) :
      (siblings ++ [last]).getD (i + 1) node = siblings.getD (i + 1) last := by
    rw [List.getD_eq_getElem?_getD, List.getD_eq_getElem?_getD]
    rcases Nat.lt_or_eq_of_le (Nat.succ_le_of_lt hi) with hlt | heq
    · have hlt : i + 1 < siblings.length := hlt
      rw [List.getElem?_append_left hlt, List.getElem?_eq_getElem hlt]
      rfl
    · have heq : i + 1 = siblings.length := heq
      rw [heq, List.getElem?_append_right (Nat.le_refl _), List.getElem?_eq_none (Nat.le_refl _)]
      simp
  constructor
  · rintro ⟨-, hattached⟩
    refine ⟨?_, h, fun i hi hfirst => ?_⟩
    · simpa using hattached siblings.length (by simp) h
    · have hi' := hattached i (by simp; omega) hfirst
      rwa [List.getElem_append_left hi, hnext i hi] at hi'
  · rintro ⟨hlast, -, hattached⟩
    refine ⟨by simp; omega, fun i hi hfirst => ?_⟩
    rcases Nat.lt_or_eq_of_le (Nat.le_of_lt_succ (by simpa using hi)) with hlt | rfl
    · rw [List.getElem_append_left hlt, hnext i hlt]
      exact hattached i hlt hfirst
    · simpa using hlast

/-- The comments above a node, the nearest first, are the siblings from the first place on from which they lead
to it. -/
theorem run_eq (source : List Char) : ∀ (preceding : List Node) (node : Node),
    ∃ first, Leads source preceding.reverse node first ∧
      (∀ earlier < first, ¬Leads source preceding.reverse node earlier) ∧
      run source (Text.row source node.start) preceding = (preceding.reverse.drop first).reverse
  | [], node => ⟨0, leads_length source [] node, fun _ h => absurd h (Nat.not_lt_zero _), rfl⟩
  | sibling :: rest, node => by
    rw [List.reverse_cons, run]
    by_cases hattached : Attached source sibling node
    · obtain ⟨first, hleads, hleast, hrun⟩ := run_eq source rest sibling
      have hle : first ≤ rest.reverse.length := hleads.1
      refine ⟨first, (leads_concat hle).mpr ⟨hattached, hleads⟩, fun earlier hearlier h => ?_, ?_⟩
      · exact hleast earlier hearlier ((leads_concat (by omega)).mp h).2
      · rw [if_pos (belongsTo_iff.mpr hattached), hrun, List.drop_append_of_le_length hle, List.reverse_append]
        rfl
    · -- Nothing leads to the node, because the nearest sibling is not attached to it.
      refine ⟨_, leads_length source _ node, fun earlier hearlier h => ?_, ?_⟩
      · have hle : earlier ≤ rest.reverse.length := by simpa [Nat.lt_succ_iff] using hearlier
        exact hattached ((leads_concat hle).mp h).1
      · rw [if_neg (fun h => hattached (belongsTo_iff.mp h)), List.drop_length, List.reverse_nil]

/-- Let `first` be the least place from which the siblings before a node lead to it. The documentation of the
node is made of their texts from there on, in document order and one per line; there is none if no sibling is
left. -/
theorem above?_eq (source : List Char) (siblings : List Node) (node : Node) :
    ∃ first, Leads source siblings node first ∧ (∀ earlier < first, ¬Leads source siblings node earlier) ∧
      above? source ⟨siblings.reverse, node⟩ =
        if first = siblings.length then none
        else some (String.ofList (['\n'].intercalate ((siblings.drop first).map (·.text source)))) := by
  obtain ⟨first, hleads, hleast, hrun⟩ := run_eq source siblings.reverse node
  rw [List.reverse_reverse] at hleads hleast hrun
  refine ⟨first, hleads, hleast, ?_⟩
  rw [above?]
  by_cases hnone : first = siblings.length
  · rw [hrun, if_pos hnone, hnone, List.drop_length]
    rfl
  · have hsome : (siblings.drop first).reverse ≠ [] := by
      have := hleads.1
      simp
      omega
    rw [hrun, if_neg hnone]
    split
    · contradiction
    · rw [List.reverse_reverse]

end Comment

end DocIndex
