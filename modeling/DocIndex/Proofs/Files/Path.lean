import DocIndex.Files.Path

/-! # Components of paths

The components of a path are those of the pieces of its text, after a root or a `.` at its start. So a
path that goes on after a separator has the components of both parts. -/

namespace DocIndex.Path

/-- A text that can name a file. -/
structure Proper (name : String) : Prop where
  noSeparator : '/' ∉ name.toList
  ne_empty : name ≠ ""
  ne_current : name ≠ "."
  ne_parent : name ≠ ".."

instance (name : String) : Decidable (Proper name) :=
  decidable_of_iff ('/' ∉ name.toList ∧ name ≠ "" ∧ name ≠ "." ∧ name ≠ "..")
    ⟨fun ⟨h, h₁, h₂, h₃⟩ => ⟨h, h₁, h₂, h₃⟩, fun ⟨h, h₁, h₂, h₃⟩ => ⟨h, h₁, h₂, h₃⟩⟩

/-- The components that the pieces of a text stand for. -/
def counted (text : List Char) : List Component :=
  ((split text).filter counts).map pieceComponent

theorem counted_append (before after : List Char) :
    counted (before ++ '/' :: after) = counted before ++ counted after := by
  rw [counted, split, List.splitOnP_append_cons _ _ (by rfl), List.filter_append, List.map_append]
  rfl

theorem counted_separator_cons (text : List Char) : counted ('/' :: text) = counted text :=
  counted_append [] text

theorem not_mem_of_mem_split {text piece : List Char} (h : piece ∈ split text) : '/' ∉ piece := by
  induction text generalizing piece with
  | nil =>
    obtain rfl : piece = [] := by simpa [split] using h
    exact List.not_mem_nil
  | cons first rest ih =>
    rw [split, List.splitOnP_cons_eq_if_modifyHead] at h
    split at h
    next =>
      rcases List.mem_cons.mp h with rfl | h
      · exact List.not_mem_nil
      · exact ih h
    next hfirst =>
      obtain ⟨head, tail, heq⟩ := List.exists_cons_of_ne_nil (List.splitOnP_ne_nil (· == '/') rest)
      have hsplit : split rest = head :: tail := heq
      rw [heq, List.modifyHead_cons] at h
      rcases List.mem_cons.mp h with rfl | h
      · intro hmem
        rcases List.mem_cons.mp hmem with rfl | hmem
        · exact hfirst rfl
        · exact ih (hsplit ▸ List.mem_cons_self) hmem
      · exact ih (hsplit ▸ List.mem_cons_of_mem _ h)

theorem counted_of_not_mem {text : List Char} (h : '/' ∉ text) :
    counted text = if counts text then [pieceComponent text] else [] := by
  have hsplit : split text = [text] :=
    List.splitOnP_eq_singleton fun c hc => by simpa using ne_of_mem_of_not_mem hc h
  rw [counted, hsplit, List.filter_cons]
  split <;> rfl

theorem flatMap_counted_split (text : List Char) : (split text).flatMap counted = counted text := by
  have hpieces : ∀ pieces : List (List Char), (∀ piece ∈ pieces, '/' ∉ piece) →
      pieces.flatMap counted = (pieces.filter counts).map pieceComponent := by
    intro pieces hpieces
    induction pieces with
    | nil => rfl
    | cons piece rest ih =>
      obtain ⟨hpiece, hrest⟩ := List.forall_mem_cons.mp hpieces
      rw [List.flatMap_cons, ih hrest, counted_of_not_mem hpiece, List.filter_cons]
      split <;> rfl
  exact hpieces _ fun _ => not_mem_of_mem_split

theorem Proper.toList_ne {name : String} (h : Proper name) :
    name.toList ≠ [] ∧ name.toList ≠ ['.'] ∧ name.toList ≠ ['.', '.'] :=
  ⟨fun heq => h.ne_empty (String.toList_inj.mp heq), fun heq => h.ne_current (String.toList_inj.mp heq),
    fun heq => h.ne_parent (String.toList_inj.mp heq)⟩

theorem Proper.counted_eq {name : String} (h : Proper name) : counted name.toList = [.name name] := by
  obtain ⟨hempty, hcurrent, hparent⟩ := h.toList_ne
  have hcounts : counts name.toList = true := by simp [counts, hempty, hcurrent]
  rw [counted_of_not_mem h.noSeparator, if_pos hcounts, pieceComponent, if_neg hparent,
    String.ofList_toList]

theorem mem_counted {text : List Char} {component : Component} (h : component ∈ counted text) :
    component = .parent ∨ ∃ name, component = .name name := by
  obtain ⟨piece, -, rfl⟩ := List.mem_map.mp h
  unfold pieceComponent
  split
  · exact .inl rfl
  · exact .inr ⟨_, rfl⟩

/-! ### The start of a path -/

theorem counted_splitLead (text : List Char) : counted (splitLead text).2 = counted text := by
  fun_cases splitLead text with
  | case1 rest => exact (counted_separator_cons rest).symm
  | case2 => rfl
  | case3 rest => rw [counted_separator_cons]; exact (counted_append ['.'] rest).symm
  | case4 => rfl

theorem components_eq (path : Path) :
    path.components = leadComponent path.lead ++ counted path.text.toList := by
  rw [← counted_splitLead]
  rfl

theorem splitLead_append_separator {before : List Char} (h : before ≠ []) (after : List Char) :
    (splitLead (before ++ '/' :: after)).1 = (splitLead before).1 := by
  fun_cases splitLead before with
  | case1 rest => rfl
  | case2 => rfl
  | case3 rest => rfl
  | case4 _ hroot hdot hcurrent =>
    obtain ⟨first, rest, rfl⟩ := List.exists_cons_of_ne_nil h
    rw [List.cons_append, splitLead]
    · rintro _ heq
      obtain ⟨rfl, -⟩ := List.cons.inj heq
      exact hroot rest rfl
    · simp
    · rintro _ heq
      obtain ⟨rfl, hrest⟩ := List.cons.inj heq
      cases rest with
      | nil => exact hdot rfl
      | cons second rest =>
        obtain ⟨rfl, -⟩ := List.cons.inj hrest
        exact hcurrent rest rfl

theorem components_append_separator {before : String} (h : before ≠ "") (after : String) :
    components ⟨before ++ "/" ++ after⟩ = components ⟨before⟩ ++ counted after.toList := by
  have hbefore : before.toList ≠ [] := fun heq => h (String.toList_inj.mp heq)
  have htext : (before ++ "/" ++ after).toList = before.toList ++ '/' :: after.toList := by simp
  rw [components_eq, components_eq, lead, lead, htext, splitLead_append_separator hbefore, counted_append,
    List.append_assoc]

theorem components_separator_append (after : String) :
    components ⟨"/" ++ after⟩ = .root :: counted after.toList := by
  have htext : ("/" ++ after).toList = '/' :: after.toList := by simp
  rw [components_eq, lead, htext, counted_separator_cons]
  rfl

theorem components_child {path : Path} (h : path.text ≠ "") (name : String) :
    (path.child name).components = path.components ++ counted name.toList := by
  obtain ⟨text⟩ := path
  unfold child
  rw [if_neg (by simpa using h)]
  split
  next hlast =>
    obtain ⟨before, heq⟩ := List.getLast?_eq_some_iff.mp hlast
    obtain rfl : text = String.ofList before ++ "/" := String.toList_inj.mp (by simpa using heq)
    by_cases hbefore : String.ofList before = ""
    · rw [hbefore, String.empty_append, components_separator_append]
      rfl
    · have hpath := components_append_separator hbefore ""
      rw [components_append_separator hbefore, ← String.append_empty (s := _ ++ "/"), hpath]
      simp [counted, split, counts]
  next => exact components_append_separator h name

theorem child_ne_empty {path : Path} (h : path.text ≠ "") (name : String) :
    (path.child name).text ≠ "" := by
  unfold child
  rw [if_neg (by simpa using h)]
  split <;> simp [h]

theorem splitLead_of_not_mem {text : List Char} (hseparator : '/' ∉ text) (hcurrent : text ≠ ['.']) :
    splitLead text = ([], text) := by
  fun_cases splitLead text with
  | case1 rest => exact absurd List.mem_cons_self hseparator
  | case2 => exact absurd rfl hcurrent
  | case3 rest => simp at hseparator
  | case4 => rfl

theorem components_of_not_mem {name : String} (hseparator : '/' ∉ name.toList) (hcurrent : name ≠ ".") :
    components ⟨name⟩ = counted name.toList := by
  have hcurrent' : name.toList ≠ ['.'] := fun heq => hcurrent (String.toList_inj.mp heq)
  rw [components_eq, lead, splitLead_of_not_mem hseparator hcurrent']
  rfl

theorem counted_intercalate {names : List String} (h : ∀ name ∈ names, Proper name) :
    counted ("/".intercalate names).toList = names.map .name := by
  induction names with
  | nil => rfl
  | cons name rest ih =>
    obtain ⟨hname, hrest⟩ := List.forall_mem_cons.mp h
    cases rest with
    | nil => rw [String.intercalate_singleton]; exact hname.counted_eq
    | cons next rest =>
      have htext : ("/".intercalate (name :: next :: rest)).toList =
          name.toList ++ '/' :: ("/".intercalate (next :: rest)).toList := by
        simp [String.intercalate_cons_cons]
      rw [htext, counted_append, hname.counted_eq, ih hrest]
      rfl

theorem components_of_names {names : List String} (h : ∀ name ∈ names, Proper name) :
    components ⟨"/" ++ "/".intercalate names⟩ = .root :: names.map .name := by
  rw [components_separator_append, counted_intercalate h]

/-! ### Steps -/

/-- The components without a `.` at the start. -/
def steps (path : Path) : List Component :=
  path.components.filter (· ≠ .current)

theorem current_not_mem_counted (text : List Char) : .current ∉ counted text := by
  intro h
  rcases mem_counted h with h | ⟨_, h⟩ <;> cases h

theorem steps_eq_components {path : Path} (h : .current ∉ path.components) :
    path.steps = path.components := by
  refine List.filter_eq_self.mpr fun component hcomponent => ?_
  simpa using ne_of_mem_of_not_mem hcomponent h

theorem leadComponent_splitLead {text : List Char} (h : ∀ rest, text ≠ '/' :: rest) :
    leadComponent (splitLead text).1 = [] ∨ leadComponent (splitLead text).1 = [.current] := by
  fun_cases splitLead text with
  | case1 rest => exact absurd rfl (h rest)
  | case2 => exact .inr rfl
  | case3 rest => exact .inr rfl
  | case4 => exact .inl rfl

theorem components_of_absolute {path : Path} {rest : List Char} (h : path.text.toList = '/' :: rest) :
    path.components = .root :: counted rest := by
  rw [components_eq, lead, h, counted_separator_cons]
  rfl

theorem steps_of_absolute {path : Path} {rest : List Char} (h : path.text.toList = '/' :: rest) :
    path.steps = .root :: counted rest := by
  rw [steps_eq_components, components_of_absolute h]
  rw [components_of_absolute h]
  simp [current_not_mem_counted]

theorem steps_of_relative {path : Path} (h : ∀ rest, path.text.toList ≠ '/' :: rest) :
    path.steps = counted path.text.toList := by
  have hcounted : (counted path.text.toList).filter (· ≠ .current) = counted path.text.toList :=
    List.filter_eq_self.mpr fun component hcomponent => by
      simpa using ne_of_mem_of_not_mem hcomponent (current_not_mem_counted _)
  rw [steps, components_eq, List.filter_append, hcounted, lead]
  rcases leadComponent_splitLead h with heq | heq <;> rw [heq] <;> rfl

theorem counted_eq_names {text : List Char} (h : .parent ∉ counted text) :
    ∃ names : List String, counted text = names.map .name := by
  refine ⟨((split text).filter counts).map String.ofList, ?_⟩
  rw [counted, List.map_map]
  refine List.map_congr_left fun piece hpiece => ?_
  have hparent : piece ≠ ['.', '.'] := by
    rintro rfl
    exact h (List.mem_map.mpr ⟨_, hpiece, rfl⟩)
  exact if_neg hparent

theorem absolute_of_root_mem {path : Path} (h : .root ∈ path.components) :
    ∃ rest, path.text.toList = '/' :: rest := by
  apply Classical.byContradiction
  intro hrelative
  rw [components_eq, lead, List.mem_append] at h
  rcases h with h | h
  · rcases leadComponent_splitLead fun rest heq => hrelative ⟨rest, heq⟩ with heq | heq <;>
      simp [heq] at h
  · rcases mem_counted h with heq | ⟨_, heq⟩ <;> cases heq

theorem current_not_mem_of_root_mem {path : Path} (h : .root ∈ path.components) :
    .current ∉ path.components := by
  obtain ⟨rest, hrest⟩ := absolute_of_root_mem h
  rw [components_of_absolute hrest]
  simp [current_not_mem_counted]

/-- A path without steps up consists of names, from the root if it is absolute. -/
theorem steps_eq_names {path : Path} (h : .parent ∉ path.components) :
    ∃ names : List String,
      path.steps = (if .root ∈ path.components then [.root] else []) ++ names.map .name := by
  have hparent : .parent ∉ counted path.text.toList := by
    rw [components_eq] at h
    exact fun hmem => h (List.mem_append_right _ hmem)
  obtain ⟨names, hnames⟩ := counted_eq_names hparent
  refine ⟨names, ?_⟩
  split
  next hroot =>
    obtain ⟨rest, hrest⟩ := absolute_of_root_mem hroot
    rw [hrest, counted_separator_cons] at hnames
    rw [steps_of_absolute hrest, hnames, List.singleton_append]
  next hroot =>
    have hrelative : ∀ rest, path.text.toList ≠ '/' :: rest := by
      intro rest hrest
      exact hroot (components_of_absolute hrest ▸ List.mem_cons_self)
    rw [steps_of_relative hrelative, hnames, List.nil_append]

end DocIndex.Path
