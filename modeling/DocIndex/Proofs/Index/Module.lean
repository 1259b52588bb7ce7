import DocIndex.Index.Module
import DocIndex.Proofs.Text.ByteOrder

/-! # The files of a module

Each path leads to a group of found files. A module holds the index of the first finding of each file,
where there is one, ordered by the bytes of the recorded paths. The order of the paths is lost, as long as
they share no file and no two files are recorded under one path (`Module.build_eq`). -/

namespace DocIndex.Module

variable {files : FileSystem} {options : ModuleOptions} {grammar : Grammar}

/-! ### First findings -/

/-- The first finding of each file. -/
def firstFound (found : List FoundFile) : List FoundFile :=
  (found.map (·.file.components)).eraseDups.filterMap fun components =>
    found.find? (·.file.components == components)

/-- Whether two groups of found files have no file in common. -/
def Apart (group other : List FoundFile) : Prop :=
  ∀ entry ∈ group, ∀ later ∈ other, entry.file.components ≠ later.file.components

theorem filterMap_find?_cons (entry : FoundFile) (rest : List FoundFile)
    (names : List (List Path.Component)) (hnames : entry.file.components ∉ names) :
    names.filterMap (fun components => (entry :: rest).find? (·.file.components == components)) =
      names.filterMap fun components =>
        (rest.filter (!·.file.components == entry.file.components)).find?
          (·.file.components == components) := by
  induction names with
  | nil => rfl
  | cons first names ih =>
    obtain ⟨hfirst, hnames⟩ := List.ne_and_not_mem_of_not_mem_cons hnames
    have hfind : (entry :: rest).find? (·.file.components == first) =
        (rest.filter (!·.file.components == entry.file.components)).find?
          (·.file.components == first) := by
      rw [List.find?_cons_of_neg (by simpa using hfirst), List.find?_filter]
      congr 1
      funext other
      by_cases h : other.file.components = first <;> simp [h, Ne.symm hfirst]
    rw [List.filterMap_cons, List.filterMap_cons, hfind, ih hnames]

theorem firstFound_cons (entry : FoundFile) (rest : List FoundFile) :
    firstFound (entry :: rest) =
      entry :: firstFound (rest.filter (!·.file.components == entry.file.components)) := by
  have hentry : (entry :: rest).find? (·.file.components == entry.file.components) = some entry := by
    simp
  unfold firstFound
  rw [List.map_cons, List.eraseDups_cons, List.filterMap_cons, hentry,
    filterMap_find?_cons _ _ _ (by simp [List.mem_eraseDups]), List.filter_map]
  rfl

theorem addNew_eq (known found : List FoundFile) :
    addNew known found = known ++ firstFound (found.filter fun entry =>
      !known.any (·.file.components == entry.file.components)) := by
  induction found generalizing known with
  | nil => simp [addNew, firstFound]
  | cons entry rest ih =>
    rw [addNew]
    split
    next hknown => rw [ih, List.filter_cons_of_neg (by simpa using hknown)]
    next hnew =>
      have hfilter : (fun other : FoundFile =>
          !(known ++ [entry]).any (·.file.components == other.file.components)) =
          fun other => !other.file.components == entry.file.components &&
            !known.any (·.file.components == other.file.components) := by
        funext other
        simp [Bool.and_comm, BEq.comm (a := entry.file.components)]
      rw [ih, List.filter_cons_of_pos (by simpa using hnew), firstFound_cons, List.filter_filter,
        hfilter, List.append_assoc, List.singleton_append]

theorem addNew_nil (found : List FoundFile) : addNew [] found = firstFound found := by
  rw [addNew_eq, List.nil_append, List.filter_eq_self.mpr (by simp)]

theorem addNew_append (known found more : List FoundFile) :
    addNew known (found ++ more) = addNew (addNew known found) more := by
  induction found generalizing known with
  | nil => rfl
  | cons entry rest ih =>
    rw [List.cons_append, addNew, addNew]
    split
    next => exact ih known
    next => exact ih _

theorem mem_of_mem_addNew {known found : List FoundFile} {entry : FoundFile}
    (h : entry ∈ addNew known found) : entry ∈ known ∨ entry ∈ found := by
  induction found generalizing known with
  | nil => exact .inl h
  | cons first rest ih =>
    rw [addNew] at h
    split at h
    next =>
      rcases ih h with h | h
      · exact .inl h
      · exact .inr (List.mem_cons_of_mem _ h)
    next =>
      rcases ih h with h | h
      · rcases List.mem_append.mp h with h | h
        · exact .inl h
        · exact .inr (by simp_all)
      · exact .inr (List.mem_cons_of_mem _ h)

theorem mem_of_mem_firstFound {found : List FoundFile} {entry : FoundFile}
    (h : entry ∈ firstFound found) : entry ∈ found := by
  rw [← addNew_nil] at h
  rcases mem_of_mem_addNew h with h | h
  · cases h
  · exact h

theorem firstFound_append_of_apart {found more : List FoundFile} (h : Apart found more) :
    firstFound (found ++ more) = firstFound found ++ firstFound more := by
  rw [← addNew_nil, addNew_append, addNew_nil, addNew_eq]
  congr 2
  apply List.filter_eq_self.mpr
  intro later hlater
  rw [Bool.not_eq_true', List.any_eq_false]
  intro entry hentry
  simpa using h entry (mem_of_mem_firstFound hentry) later hlater

theorem firstFound_flatten_of_apart {groups : List (List FoundFile)} (h : groups.Pairwise Apart) :
    firstFound groups.flatten = groups.flatMap firstFound := by
  induction groups with
  | nil => rfl
  | cons group rest ih =>
    obtain ⟨hgroup, hrest⟩ := List.pairwise_cons.mp h
    have happart : Apart group rest.flatten := by
      intro entry hentry later hlater
      obtain ⟨other, hother, hlater⟩ := List.mem_flatten.mp hlater
      exact hgroup other hother entry hentry later hlater
    rw [List.flatten_cons, firstFound_append_of_apart happart, ih hrest, List.flatMap_cons]

/-! ### What the paths lead to -/

/-- What each of some paths leads to. -/
def Leads (files : FileSystem) (options : ModuleOptions) (paths : List Path)
    (groups : List (List FoundFile)) : Prop :=
  paths.map (filesUnder files options) = groups.map .ok

theorem filesUnderAfter_eq {known found : List FoundFile} {paths : List Path}
    (h : filesUnderAfter files options known paths = .ok found) :
    ∃ groups, Leads files options paths groups ∧ found = addNew known groups.flatten := by
  induction paths generalizing known with
  | nil =>
    cases h
    exact ⟨[], rfl, rfl⟩
  | cons path rest ih =>
    rw [filesUnderAfter] at h
    split at h
    next group hgroup =>
      obtain ⟨groups, hgroups, rfl⟩ := ih h
      refine ⟨group :: groups, ?_, ?_⟩
      · rw [Leads, List.map_cons, List.map_cons, hgroup, hgroups]
      · rw [List.flatten_cons, addNew_append]
    next => cases h

theorem filesUnderAfter_of_leads {known : List FoundFile} {paths : List Path}
    {groups : List (List FoundFile)} (h : Leads files options paths groups) :
    filesUnderAfter files options known paths = .ok (addNew known groups.flatten) := by
  induction paths generalizing known groups with
  | nil =>
    obtain rfl : groups = [] := List.map_eq_nil_iff.mp h.symm
    rfl
  | cons path rest ih =>
    obtain ⟨group, groups, rfl, hgroup, hgroups⟩ := List.map_eq_cons_iff.mp h.symm
    rw [filesUnderAfter, ← hgroup, List.flatten_cons, addNew_append]
    exact ih hgroups.symm

theorem filesUnderAll_eq_ok_iff {paths : List Path} {found : List FoundFile} :
    filesUnderAll files options paths = .ok found ↔
      ∃ groups, Leads files options paths groups ∧ found = firstFound groups.flatten := by
  constructor
  · intro h
    obtain ⟨groups, hgroups, rfl⟩ := filesUnderAfter_eq h
    exact ⟨groups, hgroups, addNew_nil _⟩
  · rintro ⟨groups, hgroups, rfl⟩
    rw [← addNew_nil]
    exact filesUnderAfter_of_leads hgroups

theorem Leads.unique {paths : List Path} {groups others : List (List FoundFile)}
    (h : Leads files options paths groups) (hothers : Leads files options paths others) :
    groups = others :=
  (List.map_inj_right fun _ _ => Except.ok.inj).mp (h.symm.trans hothers)

theorem Leads.perm {paths others : List Path} {groups : List (List FoundFile)}
    (h : Leads files options paths groups) (hperm : others.Perm paths) :
    ∃ groups', Leads files options others groups' ∧ groups'.Perm groups := by
  induction hperm generalizing groups with
  | nil => exact ⟨groups, h, .refl _⟩
  | cons path _ ih =>
    obtain ⟨group, groups, rfl, hgroup, hgroups⟩ := List.map_eq_cons_iff.mp h.symm
    obtain ⟨groups', hleads, hperm⟩ := ih hgroups.symm
    refine ⟨group :: groups', ?_, hperm.cons group⟩
    rw [Leads, List.map_cons, List.map_cons, ← hgroup, hleads]
  | swap second first rest =>
    obtain ⟨_, _, rfl, hfirst, hrest⟩ := List.map_eq_cons_iff.mp h.symm
    obtain ⟨_, groups, rfl, hsecond, hrest⟩ := List.map_eq_cons_iff.mp hrest
    refine ⟨_ :: _ :: groups, ?_, .swap _ _ groups⟩
    rw [Leads, List.map_cons, List.map_cons, List.map_cons, List.map_cons, ← hfirst, ← hsecond, ← hrest]
  | trans _ _ first second =>
    obtain ⟨middle, hmiddle, hperm⟩ := second h
    obtain ⟨groups', hgroups, hperm'⟩ := first hmiddle
    exact ⟨groups', hgroups, hperm'.trans hperm⟩

/-! ### The order of files -/

/-- The index of a found file, if it has one. -/
def indexed? (files : FileSystem) (options : ModuleOptions) (grammar : Grammar)
    (entry : FoundFile) : Option SourceFile :=
  (SourceFile.build files grammar Markup.read options.allowFaults entry.file entry.base).toOption

theorem index_perm (found : List FoundFile) :
    (index files options grammar found).Perm (found.filterMap (indexed? files options grammar)) :=
  List.mergeSort_perm _ _

theorem pathLe_iff {a b : SourceFile} : pathLe a b = true ↔ a.path ≤ b.path :=
  decide_eq_true_iff

theorem index_pairwise (found : List FoundFile) :
    (index files options grammar found).Pairwise (fun a b => a.path ≤ b.path) := by
  have htrans : ∀ a b c, pathLe a b → pathLe b c → pathLe a c := by
    intro a b c hab hbc
    exact pathLe_iff.mpr (String.le_trans (pathLe_iff.mp hab) (pathLe_iff.mp hbc))
  have htotal : ∀ a b, pathLe a b || pathLe b a := by
    intro a b
    rw [Bool.or_eq_true, pathLe_iff, pathLe_iff]
    exact String.le_total a.path b.path
  exact (List.pairwise_mergeSort htrans htotal _).imp pathLe_iff.mp

theorem build_eq_ok {name : String} {paths : List Path} {found : List FoundFile}
    (h : filesUnderAll files options paths = .ok found) :
    build files options grammar name paths = .ok ⟨name, index files options grammar found⟩ := by
  rw [build, h]

theorem pairwise_lt_of_nodup {sources : List SourceFile}
    (hsorted : sources.Pairwise (fun a b => a.path ≤ b.path)) (hnodup : (sources.map (·.path)).Nodup) :
    sources.Pairwise (fun a b => a.path < b.path) := by
  refine (hsorted.and (List.pairwise_map.mp hnodup)).imp ?_
  rintro a b ⟨hle, hne⟩
  exact String.not_le.mp fun hge => hne (String.le_antisymm hle hge)

theorem index_eq_of_perm {found others : List FoundFile} (hperm : others.Perm found)
    (hnodup : ((index files options grammar found).map (·.path)).Nodup) :
    index files options grammar others = index files options grammar found := by
  have hindex : (index files options grammar others).Perm (index files options grammar found) :=
    (index_perm others).trans ((hperm.filterMap _).trans (index_perm found).symm)
  have hnodup' := (hindex.map (·.path)).nodup_iff.mpr hnodup
  refine hindex.eq_of_pairwise ?_ (pairwise_lt_of_nodup (index_pairwise _) hnodup')
    (pairwise_lt_of_nodup (index_pairwise _) hnodup)
  intro a b _ _ hab hba
  exact absurd hba (String.lt_asymm hab)

theorem filterMap_filter_of_none {found : List FoundFile} {keep : FoundFile → Bool}
    (hkeep : ∀ entry ∈ found, keep entry = false → indexed? files options grammar entry = none) :
    (found.filter keep).filterMap (indexed? files options grammar) =
      found.filterMap (indexed? files options grammar) := by
  induction found with
  | nil => rfl
  | cons entry rest ih =>
    obtain ⟨hentry, hrest⟩ := List.forall_mem_cons.mp hkeep
    cases hkept : keep entry with
    | true => rw [List.filter_cons_of_pos hkept, List.filterMap_cons, List.filterMap_cons, ih hrest]
    | false =>
      rw [List.filter_cons_of_neg (by simp [hkept]), List.filterMap_cons_none (hentry hkept), ih hrest]

/-- A module holds the index of each file that has one, once and ordered by path. -/
theorem build_eq (files : FileSystem) (options : ModuleOptions) (grammar : Grammar) (name : String)
    {paths : List Path} {found : List FoundFile}
    (hfound : filesUnderAll files options paths = .ok found) :
    ∃ groups sources, Leads files options paths groups ∧ found = firstFound groups.flatten ∧
      build files options grammar name paths = .ok ⟨name, sources⟩ ∧
      sources.Pairwise (fun a b => Text.utf8 a.path ≤ Text.utf8 b.path) ∧
      sources.Perm ((firstFound groups.flatten).filterMap (indexed? files options grammar)) ∧
      (∀ keep : FoundFile → Bool,
        (∀ entry ∈ found, keep entry = false → indexed? files options grammar entry = none) →
        index files options grammar (found.filter keep) = sources) ∧
      ∀ others : List Path, others.Perm paths → groups.Pairwise Apart →
        (sources.map (·.path)).Nodup → build files options grammar name others = .ok ⟨name, sources⟩ := by
  obtain ⟨groups, hgroups, rfl⟩ := filesUnderAll_eq_ok_iff.mp hfound
  refine ⟨groups, _, hgroups, rfl, build_eq_ok hfound, ?_, index_perm _, ?_, ?_⟩
  · exact (index_pairwise _).imp Text.le_iff_utf8_le.mp
  · intro keep hkeep
    unfold index
    exact congrArg (List.mergeSort · pathLe) (filterMap_filter_of_none hkeep)
  · intro others hperm happart hnodup
    obtain ⟨groups', hgroups', hpermGroups⟩ := hgroups.perm hperm
    have happart' : groups'.Pairwise Apart :=
      happart.perm hpermGroups.symm fun h entry hentry later hlater => (h later hlater entry hentry).symm
    have hfound' : (firstFound groups'.flatten).Perm (firstFound groups.flatten) := by
      rw [firstFound_flatten_of_apart happart, firstFound_flatten_of_apart happart']
      exact hpermGroups.flatMap_right _
    rw [build_eq_ok (filesUnderAll_eq_ok_iff.mpr ⟨groups', hgroups', rfl⟩),
      index_eq_of_perm hfound' hnodup]

/-- A directory `b` whose listing names one file twice and one that is no text, and files elsewhere. -/
def listing : FileSystem where
  isDirectory path := path.text = "b"
  isFile path := path.isSwift
  canonical? _ := none
  search? path :=
    if path.text = "b" then some [⟨"b/X.swift"⟩, ⟨"b/Bad.swift"⟩, ⟨"b//X.swift"⟩] else none
  read path := if path.text = "b/Bad.swift" then .error .notText else .ok ""

theorem build_listing :
    ∃ found sources, filesUnderAll listing {} [⟨"b"⟩, ⟨"a/Y.swift"⟩] = .ok found ∧
      build listing {} (fun _ => default) "App" [⟨"b"⟩, ⟨"a/Y.swift"⟩] = .ok ⟨"App", sources⟩ ∧
      build listing {} (fun _ => default) "App" [⟨"a/Y.swift"⟩, ⟨"b"⟩] = .ok ⟨"App", sources⟩ ∧
      index listing {} (fun _ => default) (found.filter (·.file ≠ ⟨"b/Bad.swift"⟩)) = sources ∧
      sources.Perm [⟨"X.swift", [], []⟩, ⟨"Y.swift", [], []⟩] := by
  have hfound : filesUnderAll listing {} [⟨"b"⟩, ⟨"a/Y.swift"⟩] =
      .ok [⟨⟨"b/X.swift"⟩, ⟨"b"⟩⟩, ⟨⟨"b/Bad.swift"⟩, ⟨"b"⟩⟩, ⟨⟨"a/Y.swift"⟩, ⟨"a"⟩⟩] := rfl
  obtain ⟨groups, sources, hgroups, hfirst, hbuild, -, hperm, hkeep, horder⟩ :=
    build_eq listing {} (fun _ => default) "App" hfound
  obtain rfl : groups = [[⟨⟨"b/X.swift"⟩, ⟨"b"⟩⟩, ⟨⟨"b/Bad.swift"⟩, ⟨"b"⟩⟩, ⟨⟨"b//X.swift"⟩, ⟨"b"⟩⟩],
      [⟨⟨"a/Y.swift"⟩, ⟨"a"⟩⟩]] := hgroups.unique rfl
  rw [← hfirst] at hperm
  have hsources : sources.Perm [⟨"X.swift", [], []⟩, ⟨"Y.swift", [], []⟩] := hperm
  refine ⟨_, sources, hfound, hbuild, ?_, hkeep _ ?_, hsources⟩
  · exact horder _ (.swap _ _ _) (by unfold Apart; decide) ((hsources.map _).nodup_iff.mpr (by decide))
  · intro entry _ hleft
    obtain ⟨file, base⟩ := entry
    obtain rfl : file = ⟨"b/Bad.swift"⟩ := by simpa using hleft
    rfl

end DocIndex.Module
