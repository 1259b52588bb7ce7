import DocIndex.Proofs.Files.Volume
import DocIndex.Proofs.Index.Module

/-! # Files found under two spellings

A file that is found twice counts once if it is spelled alike both times. Where the spellings differ it is
read twice (`Module.build_detour`). In a volume two spellings lead to one file exactly if they have one
destination, which no two have that are spelled from the same start and without steps up
(`Module.build_readings`). -/

namespace DocIndex

/-- Whether two paths lead to one file. -/
def FileSystem.SameFile (files : FileSystem) (path other : Path) : Prop :=
  ∃ canonical, files.canonical? path = some canonical ∧ files.canonical? other = some canonical

namespace Module

variable {files : FileSystem} {options : ModuleOptions} {grammar : Grammar}

/-! ### Readings -/

/-- A found file and its index. -/
structure Reading where
  entry : FoundFile
  index : SourceFile

/-- The found files that have an index. -/
def readings (files : FileSystem) (options : ModuleOptions) (grammar : Grammar)
    (found : List FoundFile) : List Reading :=
  found.filterMap fun entry => (indexed? files options grammar entry).map (⟨entry, ·⟩)

theorem map_index_readings (found : List FoundFile) :
    (readings files options grammar found).map (·.index) =
      found.filterMap (indexed? files options grammar) := by
  rw [readings, List.map_filterMap]
  congr 1
  funext entry
  simp [Option.map_map, Function.comp_def]

theorem mem_readings {found : List FoundFile} {reading : Reading}
    (h : reading ∈ readings files options grammar found) :
    reading.entry ∈ found ∧ indexed? files options grammar reading.entry = some reading.index := by
  obtain ⟨entry, hentry, heq⟩ := List.mem_filterMap.mp h
  obtain ⟨index, hindex, rfl⟩ := Option.map_eq_some_iff.mp heq
  exact ⟨hentry, hindex⟩

theorem read_of_indexed? {entry : FoundFile} {index : SourceFile}
    (h : indexed? files options grammar entry = some index) : ∃ text, files.read entry.file = .ok text := by
  unfold indexed? SourceFile.build at h
  split at h
  next text htext => exact ⟨text, htext⟩
  next => cases h

theorem addNew_pairwise {known : List FoundFile}
    (h : known.Pairwise fun entry later => entry.file.components ≠ later.file.components)
    (found : List FoundFile) :
    (addNew known found).Pairwise fun entry later => entry.file.components ≠ later.file.components := by
  induction found generalizing known with
  | nil => exact h
  | cons entry rest ih =>
    rw [addNew]
    split
    next => exact ih h
    next hnew =>
      apply ih
      refine List.pairwise_append.mpr ⟨h, List.pairwise_singleton _ _, ?_⟩
      intro earlier hearlier later hlater heq
      obtain rfl := List.mem_singleton.mp hlater
      exact hnew (List.any_eq_true.mpr ⟨earlier, hearlier, by simpa using heq⟩)

theorem readings_pairwise (found : List FoundFile) :
    (readings files options grammar (firstFound found)).Pairwise fun reading later =>
      reading.entry.file.components ≠ later.entry.file.components := by
  have hfound := addNew_pairwise .nil found
  rw [addNew_nil] at hfound
  refine hfound.filterMap _ ?_
  intro entry later hne reading hreading other hother
  obtain ⟨_, _, rfl⟩ := Option.map_eq_some_iff.mp hreading
  obtain ⟨_, _, rfl⟩ := Option.map_eq_some_iff.mp hother
  exact hne

/-! ### Spellings of one file in a volume -/

variable {volume : Volume}

theorem proper_destination (hproper : volume.Proper) {path : Path} {text : String}
    (h : volume.fileSystem.read path = .ok text) : ∀ name ∈ volume.destination path, Path.Proper name := by
  obtain ⟨file, hfile, heq⟩ := Volume.mem_of_read h
  exact heq ▸ hproper file hfile

theorem sameFile_iff (hproper : volume.Proper) {path other : Path} {text otherText : String}
    (hpath : volume.fileSystem.read path = .ok text)
    (hother : volume.fileSystem.read other = .ok otherText) :
    volume.fileSystem.SameFile path other ↔
      (volume.fileSystem.canonical? path).isSome ∧ (volume.fileSystem.canonical? other).isSome ∧
        volume.destination path = volume.destination other := by
  constructor
  · rintro ⟨canonical, hcanonical, hcanonical'⟩
    refine ⟨by rw [hcanonical]; rfl, by rw [hcanonical']; rfl, ?_⟩
    have hcomponents := congrArg Path.components
      ((Volume.eq_of_canonical? hcanonical).symm.trans (Volume.eq_of_canonical? hcanonical'))
    rw [Path.components_of_names (proper_destination hproper hpath),
      Path.components_of_names (proper_destination hproper hother)] at hcomponents
    exact (List.map_inj_right fun _ _ => Path.Component.name.inj).mp (List.cons.inj hcomponents).2
  · rintro ⟨hcanonical, hcanonical', heq⟩
    obtain ⟨canonical, hcanonical⟩ := Option.isSome_iff_exists.mp hcanonical
    obtain ⟨canonical', hcanonical'⟩ := Option.isSome_iff_exists.mp hcanonical'
    refine ⟨canonical, hcanonical, ?_⟩
    rw [hcanonical', Volume.eq_of_canonical? hcanonical, Volume.eq_of_canonical? hcanonical', heq]

theorem sameFile_readings_iff (hproper : volume.Proper) {found : List FoundFile} {reading later : Reading}
    (hreading : reading ∈ readings volume.fileSystem options grammar found)
    (hlater : later ∈ readings volume.fileSystem options grammar found) :
    volume.fileSystem.SameFile reading.entry.file later.entry.file ↔
      (volume.fileSystem.canonical? reading.entry.file).isSome ∧
        (volume.fileSystem.canonical? later.entry.file).isSome ∧
          volume.destination reading.entry.file = volume.destination later.entry.file := by
  obtain ⟨text, htext⟩ := read_of_indexed? (mem_readings hreading).2
  obtain ⟨otherText, hother⟩ := read_of_indexed? (mem_readings hlater).2
  exact sameFile_iff hproper htext hother

theorem components_of_filesUnder (hproper : volume.Proper) {path : Path} {group : List FoundFile}
    (h : filesUnder volume.fileSystem options path = .ok group) {entry : FoundFile}
    (hentry : entry ∈ group) :
    (volume.fileSystem.isDirectory path = false ∧ entry.file = path) ∨
      ∃ names : List String, entry.file.components = path.steps ++ names.map .name := by
  unfold filesUnder at h
  split at h
  next =>
    unfold filesBelow at h
    split at h
    next => cases h
    next =>
      split at h
      next => cases h
      next found hfound =>
        cases h
        obtain ⟨file, hfile, rfl⟩ := List.mem_map.mp hentry
        exact .inr (Volume.components_of_search? hproper hfound (List.mem_filter.mp hfile).1)
  next hdirectory =>
    split at h
    next =>
      cases h
      obtain rfl := List.mem_singleton.mp hentry
      exact .inl ⟨by simpa using hdirectory, rfl⟩
    next => cases h

/-! ### Paths spelled alike -/

/-- Whether paths are spelled from one start and without steps up. A directory may have a `.` at its start,
which the search leaves out. -/
structure Uniform (files : FileSystem) (paths : List Path) : Prop where
  noParent : ∀ path ∈ paths, .parent ∉ path.components
  start : (∀ path ∈ paths, .root ∈ path.components) ∨
    ∀ path ∈ paths, .root ∉ path.components ∧
      (files.isDirectory path = false → .current ∉ path.components)

theorem Leads.exists_path {paths : List Path} {groups : List (List FoundFile)}
    (h : Leads files options paths groups) {entry : FoundFile} (hentry : entry ∈ groups.flatten) :
    ∃ path ∈ paths, ∃ group, filesUnder files options path = .ok group ∧ entry ∈ group := by
  obtain ⟨group, hgroup, hentry⟩ := List.mem_flatten.mp hentry
  have hmem : .ok group ∈ paths.map (filesUnder files options) :=
    h ▸ List.mem_map.mpr ⟨group, hgroup, rfl⟩
  obtain ⟨path, hpath, heq⟩ := List.mem_map.mp hmem
  exact ⟨path, hpath, group, heq, hentry⟩

theorem Uniform.exists_anchor {paths : List Path} (h : Uniform files paths) :
    ∃ anchor : List Path.Component, ∀ path ∈ paths,
      (∃ names : List String, path.steps = anchor ++ names.map .name) ∧
        (files.isDirectory path = false → path.components = path.steps) := by
  rcases h.start with hroot | hrelative
  · refine ⟨[.root], fun path hpath => ⟨?_, fun _ => ?_⟩⟩
    · simpa [hroot path hpath] using Path.steps_eq_names (h.noParent path hpath)
    · exact (Path.steps_eq_components (Path.current_not_mem_of_root_mem (hroot path hpath))).symm
  · refine ⟨[], fun path hpath => ⟨?_, fun hfile => ?_⟩⟩
    · simpa [(hrelative path hpath).1] using Path.steps_eq_names (h.noParent path hpath)
    · exact (Path.steps_eq_components ((hrelative path hpath).2 hfile)).symm

/-- Files below paths that are spelled alike are spelled alike. -/
theorem Uniform.components_eq (hproper : volume.Proper) {paths : List Path}
    (h : Uniform volume.fileSystem paths) {groups : List (List FoundFile)}
    (hgroups : Leads volume.fileSystem options paths groups) :
    ∃ anchor : List Path.Component, ∀ entry ∈ groups.flatten,
      ∃ names : List String, entry.file.components = anchor ++ names.map .name := by
  obtain ⟨anchor, hanchor⟩ := h.exists_anchor
  refine ⟨anchor, fun entry hentry => ?_⟩
  obtain ⟨path, hpath, group, hgroup, hentry⟩ := hgroups.exists_path hentry
  obtain ⟨⟨names, hnames⟩, hfile⟩ := hanchor path hpath
  rcases components_of_filesUnder hproper hgroup hentry with ⟨hdirectory, rfl⟩ | ⟨below, hbelow⟩
  · exact ⟨names, (hfile hdirectory).trans hnames⟩
  · refine ⟨names ++ below, ?_⟩
    rw [hbelow, hnames, List.map_append, List.append_assoc]

theorem Uniform.eq_of_destination_eq (hproper : volume.Proper) {paths : List Path}
    (h : Uniform volume.fileSystem paths) {groups : List (List FoundFile)}
    (hgroups : Leads volume.fileSystem options paths groups) {entry later : FoundFile}
    (hentry : entry ∈ groups.flatten) (hlater : later ∈ groups.flatten)
    (heq : volume.destination entry.file = volume.destination later.file) :
    entry.file.components = later.file.components := by
  obtain ⟨anchor, hanchor⟩ := h.components_eq hproper hgroups
  obtain ⟨names, hnames⟩ := hanchor entry hentry
  obtain ⟨others, hothers⟩ := hanchor later hlater
  rw [Volume.destination, Volume.destination, hnames, hothers, List.foldl_append, List.foldl_append,
    Volume.foldl_turn_names, Volume.foldl_turn_names] at heq
  rw [hnames, hothers, List.append_cancel_left heq]

/-- A module reads no two files that are spelled alike, and no file twice if the paths are. -/
theorem build_readings (files : FileSystem) (options : ModuleOptions) (grammar : Grammar) (name : String)
    {paths : List Path} {found : List FoundFile}
    (hfound : filesUnderAll files options paths = .ok found) :
    ∃ sources, build files options grammar name paths = .ok ⟨name, sources⟩ ∧
      sources.Perm ((readings files options grammar found).map (·.index)) ∧
      ((readings files options grammar found).Pairwise fun reading later =>
        reading.entry.file.components ≠ later.entry.file.components) ∧
      ∀ volume : Volume, volume.fileSystem = files → volume.Proper →
        (∀ reading ∈ readings files options grammar found,
          ∀ later ∈ readings files options grammar found,
            (files.SameFile reading.entry.file later.entry.file ↔
              (files.canonical? reading.entry.file).isSome ∧ (files.canonical? later.entry.file).isSome ∧
                volume.destination reading.entry.file = volume.destination later.entry.file)) ∧
        (Uniform files paths → (readings files options grammar found).Pairwise fun reading later =>
          ¬files.SameFile reading.entry.file later.entry.file) := by
  obtain ⟨groups, hgroups, rfl⟩ := filesUnderAll_eq_ok_iff.mp hfound
  refine ⟨_, build_eq_ok hfound, ?_, readings_pairwise _, ?_⟩
  · rw [map_index_readings]
    exact index_perm _
  · rintro volume rfl hproper
    refine ⟨fun reading hreading later hlater => sameFile_readings_iff hproper hreading hlater, ?_⟩
    refine fun huniform => (readings_pairwise _).imp_of_mem ?_
    intro reading later hreading hlater hne hfile
    obtain ⟨-, -, heq⟩ := (sameFile_readings_iff hproper hreading hlater).mp hfile
    exact hne (huniform.eq_of_destination_eq hproper hgroups
      (mem_of_mem_firstFound (mem_readings hreading).1) (mem_of_mem_firstFound (mem_readings hlater).1) heq)

/-- A directory `r` with a file of its own and one further down. -/
def shelf : Volume :=
  .around ["work"] [(⟨"r/A.swift"⟩, some ""), (⟨"r/sub/B.swift"⟩, some "")] []

theorem search?_shelf : shelf.search? ⟨"./r"⟩ = some [⟨"r/A.swift"⟩, ⟨"r/sub/B.swift"⟩] := by
  have hbelow : shelf.below ["work", "r"] = [["A.swift"], ["sub", "B.swift"]] :=
    List.mergeSort_of_pairwise (by decide)
  have hresolve : shelf.resolve ⟨"./r"⟩ = .ok (.directory ["work", "r"]) := rfl
  have hroot : Volume.searchRoot? ⟨"./r"⟩ = some ⟨"r"⟩ := rfl
  have hlist : shelf.canList ["work", "r"] ⟨"r"⟩ = true := rfl
  rw [Volume.search?, hresolve, hroot]
  simp only [hlist, hbelow]
  rfl

theorem filesUnder_shelf : filesUnder shelf.fileSystem {} ⟨"./r"⟩ =
    .ok [⟨⟨"r/A.swift"⟩, ⟨"./r"⟩⟩, ⟨⟨"r/sub/B.swift"⟩, ⟨"./r"⟩⟩] := by
  have hdirectory : shelf.fileSystem.isDirectory ⟨"./r"⟩ = true := rfl
  have hpatterns : shelf.fileSystem.ignorePatterns ⟨"./r"⟩ = .ok [] := rfl
  have hsearch : shelf.fileSystem.search? ⟨"./r"⟩ = some [⟨"r/A.swift"⟩, ⟨"r/sub/B.swift"⟩] :=
    search?_shelf
  rw [filesUnder, if_pos hdirectory, filesBelow, hpatterns]
  simp only [hsearch]
  rfl

theorem build_overlap :
    ∃ found sources, filesUnderAll shelf.fileSystem {} [⟨"./r"⟩, ⟨"r/A.swift"⟩] = .ok found ∧
      shelf.Proper ∧ Uniform shelf.fileSystem [⟨"./r"⟩, ⟨"r/A.swift"⟩] ∧
      build shelf.fileSystem {} (fun _ => default) "App" [⟨"./r"⟩, ⟨"r/A.swift"⟩] = .ok ⟨"App", sources⟩ ∧
      sources.Perm [⟨"A.swift", [], []⟩, ⟨"sub/B.swift", [], []⟩] ∧
      (readings shelf.fileSystem {} (fun _ => default) found).Pairwise fun reading later =>
        ¬shelf.fileSystem.SameFile reading.entry.file later.entry.file := by
  have hfound : filesUnderAll shelf.fileSystem {} [⟨"./r"⟩, ⟨"r/A.swift"⟩] =
      .ok [⟨⟨"r/A.swift"⟩, ⟨"./r"⟩⟩, ⟨⟨"r/sub/B.swift"⟩, ⟨"./r"⟩⟩] := by
    rw [filesUnderAll, filesUnderAfter, filesUnder_shelf]
    rfl
  have hproper : shelf.Proper := by unfold Volume.Proper; decide
  have huniform : Uniform shelf.fileSystem [⟨"./r"⟩, ⟨"r/A.swift"⟩] := ⟨by decide, .inr (by decide)⟩
  obtain ⟨sources, hbuild, hperm, -, hvolume⟩ :=
    build_readings shelf.fileSystem {} (fun _ => default) "App" hfound
  exact ⟨_, sources, hfound, hproper, huniform, hbuild, hperm, (hvolume shelf rfl hproper).2 huniform⟩

/-- A way around through another directory spells a file anew, and it is read twice. -/
theorem build_detour :
    filesUnderAll shelf.fileSystem {} [⟨"r/sub/../A.swift"⟩, ⟨"r/A.swift"⟩] =
        .ok [⟨⟨"r/sub/../A.swift"⟩, ⟨"r/sub/.."⟩⟩, ⟨⟨"r/A.swift"⟩, ⟨"r"⟩⟩] ∧
      shelf.fileSystem.SameFile ⟨"r/sub/../A.swift"⟩ ⟨"r/A.swift"⟩ ∧
      build shelf.fileSystem {} (fun _ => default) "App" [⟨"r/sub/../A.swift"⟩, ⟨"r/A.swift"⟩] =
        .ok ⟨"App", [⟨"A.swift", [], []⟩, ⟨"A.swift", [], []⟩]⟩ := by
  have hfound : filesUnderAll shelf.fileSystem {} [⟨"r/sub/../A.swift"⟩, ⟨"r/A.swift"⟩] =
      .ok [⟨⟨"r/sub/../A.swift"⟩, ⟨"r/sub/.."⟩⟩, ⟨⟨"r/A.swift"⟩, ⟨"r"⟩⟩] := rfl
  refine ⟨hfound, ⟨⟨"/work/r/A.swift"⟩, rfl, rfl⟩, ?_⟩
  have hread : [⟨⟨"r/sub/../A.swift"⟩, ⟨"r/sub/.."⟩⟩, ⟨⟨"r/A.swift"⟩, ⟨"r"⟩⟩].filterMap
      (indexed? shelf.fileSystem {} fun _ => default) =
      [⟨"A.swift", [], []⟩, ⟨"A.swift", [], []⟩] := rfl
  have hsorted : index shelf.fileSystem {} (fun _ => default)
      [⟨⟨"r/sub/../A.swift"⟩, ⟨"r/sub/.."⟩⟩, ⟨⟨"r/A.swift"⟩, ⟨"r"⟩⟩] =
      [⟨"A.swift", [], []⟩, ⟨"A.swift", [], []⟩] := by
    rw [← hread]
    exact List.mergeSort_of_pairwise (hread ▸ by decide)
  rw [build_eq_ok hfound, hsorted]

end Module

end DocIndex
