import Mathlib.Data.List.Basic
import DocIndex.Files.Volume
import DocIndex.Proofs.Files.Path

/-! # Where paths lead

A volume has no links, so the components of a path say where it leads: its destination. Only then is it
told whether there is something. The search of a directory spells what it finds by the steps of the
directory, followed by names. -/

namespace DocIndex.Volume

variable {volume : Volume}

/-- Whether files have only names that can name one, and lie in directories that have such. -/
def Proper (volume : Volume) : Prop :=
  ∀ stored ∈ volume.files, ∀ name ∈ stored.names, Path.Proper name

/-! ### Destinations -/

/-- The names that lead from the root to where a component leads from a directory. -/
def turn (names : List String) : Path.Component → List String
  | .root => []
  | .current => names
  | .parent => names.dropLast
  | .name text => names ++ [text]

/-- The names that lead from the root to where a path leads. -/
def destination (volume : Volume) (path : Path) : List String :=
  path.components.foldl turn volume.working

/-- An entry that the volume has at some names, as far as it is a file. -/
structure Entry.IsAt (volume : Volume) (names : List String) (entry : Entry) : Prop where
  names_eq : entry.names = names
  stored : ∀ file, entry = .file file → file ∈ volume.files

theorem Entry.isAt_directory (names : List String) : (Entry.directory names).IsAt volume names :=
  ⟨rfl, nofun⟩

theorem isAt_of_enter {names : List String} {component : Path.Component} {next : Entry}
    (h : volume.enter names component = .ok next) : next.IsAt volume (turn names component) := by
  cases component with
  | root => cases h; exact Entry.isAt_directory _
  | current => cases h; exact Entry.isAt_directory _
  | parent => cases h; exact Entry.isAt_directory _
  | name text =>
    simp only [enter] at h
    split at h
    · cases h
    · split at h
      next file hfile =>
        cases h
        have hnames : file.names = names ++ [text] := by
          simpa using List.find?_some hfile
        refine ⟨hnames, ?_⟩
        rintro _ ⟨⟩
        exact List.mem_of_find?_eq_some hfile
      next =>
        split at h
        · cases h; exact Entry.isAt_directory _
        · cases h

theorem isAt_of_stepFrom {entry next : Entry} {component : Path.Component}
    (h : volume.stepFrom entry component = .ok next) :
    next.IsAt volume (turn entry.names component) := by
  cases entry with
  | directory names => exact isAt_of_enter h
  | file file => cases h

theorem exists_of_bind_eq_ok {α β : Type} {first : Except ReadError α} {next : α → Except ReadError β}
    {result : β} (h : (first >>= next) = .ok result) :
    ∃ value, first = .ok value ∧ next value = .ok result := by
  cases first with
  | error error => cases h
  | ok value => exact ⟨value, rfl, h⟩

theorem isAt_of_absoluteStep {entry next : Entry} {component : Path.Component}
    (h : volume.absoluteStep entry component = .ok next) :
    next.IsAt volume (turn entry.names component) := by
  obtain ⟨reached, hstep, h⟩ := exists_of_bind_eq_ok h
  split at h
  · cases h
  · cases h
    exact isAt_of_stepFrom hstep

theorem isAt_of_foldlM {step : Entry → Path.Component → Except ReadError Entry}
    (hstep : ∀ {entry next component}, step entry component = .ok next →
      next.IsAt volume (turn entry.names component))
    {components : List Path.Component} {names : List String} {entry last : Entry}
    (hentry : entry.IsAt volume names) (h : components.foldlM step entry = .ok last) :
    last.IsAt volume (components.foldl turn names) := by
  induction components generalizing names entry with
  | nil => cases h; exact hentry
  | cons component rest ih =>
    rw [List.foldlM_cons] at h
    obtain ⟨next, hnext, h⟩ := exists_of_bind_eq_ok h
    have hat := hstep hnext
    rw [hentry.names_eq] at hat
    exact ih hat h

theorem isAt_of_follow {step : Entry → Path.Component → Except ReadError Entry}
    (hstep : ∀ {entry next component}, step entry component = .ok next →
      next.IsAt volume (turn entry.names component))
    {path : Path} {entry : Entry} (h : volume.follow step path = .ok entry) :
    entry.IsAt volume (volume.destination path) := by
  obtain ⟨last, hlast, h⟩ := exists_of_bind_eq_ok h
  have hat := isAt_of_foldlM hstep (Entry.isAt_directory volume.working) hlast
  split at h
  · cases h
    exact hat
  · split at h
    · cases h
    · cases h
      exact hat

theorem isAt_of_resolve {path : Path} {entry : Entry} (h : volume.resolve path = .ok entry) :
    entry.IsAt volume (volume.destination path) := by
  obtain ⟨_, -, h⟩ := exists_of_bind_eq_ok h
  split at h
  · cases h
  · exact isAt_of_follow isAt_of_stepFrom h

theorem eq_of_canonical? {path canonical : Path}
    (h : volume.fileSystem.canonical? path = some canonical) :
    canonical = ⟨"/" ++ "/".intercalate (volume.destination path)⟩ := by
  cases hcanonical : volume.canonical path with
  | error error => simp only [fileSystem, hcanonical] at h; cases h
  | ok spelled =>
    simp only [fileSystem, hcanonical] at h
    cases h
    obtain ⟨_, -, hcanonical⟩ := exists_of_bind_eq_ok hcanonical
    obtain ⟨entry, hentry, hcanonical⟩ := exists_of_bind_eq_ok hcanonical
    cases hcanonical
    rw [Entry.path, (isAt_of_follow isAt_of_absoluteStep hentry).names_eq]

theorem foldl_turn_names (start names : List String) :
    (names.map .name).foldl turn start = start ++ names := by
  induction names generalizing start with
  | nil => simp
  | cons name rest ih => rw [List.map_cons, List.foldl_cons, turn, ih, List.append_assoc, List.singleton_append]

theorem mem_of_read {path : Path} {text : String} (h : volume.fileSystem.read path = .ok text) :
    ∃ file ∈ volume.files, file.names = volume.destination path := by
  simp only [fileSystem] at h
  split at h
  · cases h
  next file hfile =>
    have hat := isAt_of_resolve hfile
    exact ⟨file, hat.stored file rfl, hat.names_eq⟩
  · cases h

/-! ### Searches -/

/-- The spelling of an entry of a directory: the directory is left out if it is just a `.`. -/
def extend (path : Path) (name : String) : Path :=
  if path.text = "." then ⟨name⟩ else path.child name

/-- A spelling that the search gives to a directory. -/
structure IsStart (path : Path) : Prop where
  nonempty : path.text ≠ ""
  current : path.text = "." ∨ .current ∉ path.components

theorem IsStart.extend {path : Path} (h : IsStart path) {name : String} (hname : '/' ∉ name.toList)
    (hsome : path.text = "." → name ≠ "") :
    IsStart (extend path name) ∧ (extend path name).steps = path.steps ++ Path.counted name.toList := by
  unfold Volume.extend
  split
  next hdot =>
    obtain ⟨text⟩ := path
    obtain rfl : text = "." := hdot
    have hrelative : ∀ rest, name.toList ≠ '/' :: rest := by
      intro rest heq
      exact hname (heq ▸ List.mem_cons_self)
    refine ⟨⟨hsome rfl, ?_⟩, Path.steps_of_relative hrelative⟩
    by_cases hcurrent : name = "."
    · exact .inl hcurrent
    · right
      rw [Path.components_of_not_mem hname hcurrent]
      exact Path.current_not_mem_counted _
  next hother =>
    have hcurrent := h.current.resolve_left hother
    have hchild : (path.child name).components = path.components ++ Path.counted name.toList :=
      Path.components_child h.nonempty name
    have hcurrent' : .current ∉ (path.child name).components := by
      rw [hchild, List.mem_append]
      rintro (hmem | hmem)
      · exact hcurrent hmem
      · exact Path.current_not_mem_counted _ hmem
    refine ⟨⟨Path.child_ne_empty h.nonempty name, .inr hcurrent'⟩, ?_⟩
    rw [Path.steps_eq_components hcurrent', Path.steps_eq_components hcurrent, hchild]

theorem extend_of_searchStart? {path start : Path} {piece : List Char} {rest : List (List Char)}
    (h : searchStart? path (piece :: rest) = some start) :
    (path.text = "." → piece ≠ []) ∧
      searchStart? (extend path (String.ofList piece)) rest = some start := by
  rw [searchStart?] at h
  unfold extend
  split at h
  next hdot =>
    rw [if_pos hdot]
    split at h
    next => cases h
    next hpiece => exact ⟨fun _ => by simpa using hpiece, h⟩
  next hother =>
    rw [if_neg hother]
    refine ⟨fun heq => absurd heq hother, ?_⟩
    split at h
    next hpiece =>
      obtain rfl : piece = [] := by simpa using hpiece
      exact h
    next => exact h

theorem isStart_of_searchStart? {path start : Path} {pieces : List (List Char)}
    (hpath : IsStart path) (hpieces : ∀ piece ∈ pieces, '/' ∉ piece)
    (h : searchStart? path pieces = some start) :
    IsStart start ∧ start.steps = path.steps ++ pieces.flatMap Path.counted := by
  induction pieces generalizing path with
  | nil =>
    cases h
    exact ⟨hpath, by simp⟩
  | cons piece rest ih =>
    obtain ⟨hpiece, hrest⟩ := List.forall_mem_cons.mp hpieces
    obtain ⟨hsome, h⟩ := extend_of_searchStart? h
    have hname : '/' ∉ (String.ofList piece).toList := by simpa using hpiece
    obtain ⟨hnext, hsteps⟩ := hpath.extend hname fun hdot heq => hsome hdot (by simpa using heq)
    obtain ⟨hstart, heq⟩ := ih hnext hrest h
    refine ⟨hstart, ?_⟩
    rw [heq, hsteps, String.toList_ofList, List.append_assoc, List.flatMap_cons]

theorem isStart_of_searchRoot? {directory start : Path} (h : searchRoot? directory = some start) :
    IsStart start ∧ start.steps = directory.steps := by
  unfold searchRoot? at h
  split at h
  next rest heq =>
    have hroot : IsStart ⟨"/"⟩ := ⟨by decide, .inr (by decide)⟩
    obtain ⟨hstart, hsteps⟩ := isStart_of_searchStart? hroot (fun _ => Path.not_mem_of_mem_split) h
    refine ⟨hstart, ?_⟩
    rw [hsteps, Path.flatMap_counted_split, Path.steps_of_absolute heq]
    rfl
  next hrelative =>
    have hcurrent : IsStart ⟨"."⟩ := ⟨by decide, .inl rfl⟩
    obtain ⟨hstart, hsteps⟩ := isStart_of_searchStart? hcurrent (fun _ => Path.not_mem_of_mem_split) h
    refine ⟨hstart, ?_⟩
    rw [hsteps, Path.flatMap_counted_split, Path.steps_of_relative hrelative]
    rfl

theorem steps_spell {start : Path} (hstart : IsStart start) {names : List String}
    (hnames : ∀ name ∈ names, Path.Proper name) :
    IsStart (spell start names) ∧ (spell start names).steps = start.steps ++ names.map .name := by
  induction names generalizing start with
  | nil => exact ⟨hstart, by simp [spell]⟩
  | cons name rest ih =>
    obtain ⟨hname, hrest⟩ := List.forall_mem_cons.mp hnames
    obtain ⟨hnext, hsteps⟩ := hstart.extend hname.noSeparator fun _ => hname.ne_empty
    obtain ⟨hspell, heq⟩ := ih hnext hrest
    refine ⟨hspell, heq.trans ?_⟩
    rw [hsteps, hname.counted_eq, List.append_assoc, List.map_cons, List.singleton_append]

theorem components_spell {start : Path} (hstart : IsStart start) {names : List String}
    (hnames : ∀ name ∈ names, Path.Proper name) (hsome : names ≠ []) :
    (spell start names).components = start.steps ++ names.map .name := by
  obtain ⟨hspell, hsteps⟩ := steps_spell hstart hnames
  rcases hspell.current with hdot | hcurrent
  · have hempty : (spell start names).steps = [] := by
      rw [Path.steps, Path.components_eq, Path.lead, hdot]
      decide
    rw [hempty] at hsteps
    simp [hsome] at hsteps
  · rw [← Path.steps_eq_components hcurrent, hsteps]

theorem mem_below {names rest : List String} (h : rest ∈ volume.below names) :
    rest ≠ [] ∧ ∃ file ∈ volume.files, file.names = names ++ rest := by
  unfold below at h
  rw [List.mem_mergeSort, List.mem_filterMap] at h
  obtain ⟨file, hfile, hrest⟩ := h
  obtain ⟨hrest, hsome⟩ := Option.filter_eq_some_iff.mp hrest
  refine ⟨by simpa using hsome, file, hfile, ?_⟩
  exact (List.isPrefixOf?_eq_some_iff_append_eq.mp hrest).symm

/-- The search spells a file by the steps of the directory and the names below it. -/
theorem components_of_search? (hproper : volume.Proper) {directory file : Path} {found : List Path}
    (h : volume.search? directory = some found) (hfile : file ∈ found) :
    ∃ names : List String, file.components = directory.steps ++ names.map .name := by
  unfold search? at h
  split at h
  next names start hnames hroot =>
    split at h
    next =>
      cases h
      obtain ⟨rest, hrest, rfl⟩ := List.mem_map.mp hfile
      obtain ⟨hsome, stored, hstored, heq⟩ := mem_below hrest
      obtain ⟨hstart, hsteps⟩ := isStart_of_searchRoot? hroot
      refine ⟨rest, ?_⟩
      rw [components_spell hstart _ hsome, hsteps]
      intro name hname
      exact hproper stored hstored name (heq ▸ List.mem_append_right _ hname)
    next => cases h
  next =>
    cases h
    cases hfile

end DocIndex.Volume
