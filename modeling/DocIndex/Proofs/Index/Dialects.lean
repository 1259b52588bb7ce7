import DocIndex.Proofs.Index.Contents

/-! # Walks in two dialects

Which comments count as documentation is left to the dialect. The imports of a tree do not depend on it.
If one dialect accepts whatever another accepts, it finds the symbols that the other finds and perhaps more,
and the contexts differ only in types and protocols that the other leaves out (`Scene.walk_dialects`). -/

namespace DocIndex

/-- The second dialect accepts every comment that the first accepts. -/
def Markup.Dialect.Within (first second : Dialect) : Prop :=
  ∀ comment, (∃ documentation, first comment = .ok documentation) →
    ∃ documentation, second comment = .ok documentation

/-! ### Contexts with fewer containers -/

/-- The first frames are the second without some of the containers among them. -/
inductive Frame.Thinned : List Frame → List Frame → Prop
  | nil : Thinned [] []
  | keep (frame : Frame) {thin frames : List Frame} (rest : Thinned thin frames) :
    Thinned (frame :: thin) (frame :: frames)
  | drop (container : Container) {thin frames : List Frame} (rest : Thinned thin frames) :
    Thinned thin (.container container :: frames)

namespace Frame.Thinned

theorem refl : ∀ frames : List Frame, Thinned frames frames
  | [] => nil
  | frame :: rest => keep frame (refl rest)

theorem append {thin₁ frames₁ thin₂ frames₂ : List Frame} (h₁ : Thinned thin₁ frames₁)
    (h₂ : Thinned thin₂ frames₂) : Thinned (thin₁ ++ thin₂) (frames₁ ++ frames₂) := by
  induction h₁ with
  | nil => exact h₂
  | keep frame _ ih => exact keep frame ih
  | drop container _ ih => exact drop container ih

theorem flatMap {α : Type} {thin frames : α → List Frame} : ∀ {list : List α},
    (∀ a ∈ list, Thinned (thin a) (frames a)) → Thinned (list.flatMap thin) (list.flatMap frames)
  | [], _ => nil
  | a :: rest, h => by
    obtain ⟨ha, hrest⟩ := List.forall_mem_cons.mp h
    exact ha.append (flatMap hrest)

end Frame.Thinned

/-! ### Symbols with their nodes -/

/-- A symbol with the way down to the node that it comes from. -/
structure Sighting where
  descent : Descent
  symbol : Symbol

/-- Two sightings of one declaration at one node. The context of the first is that of the second without
some of its containers. -/
structure Sighting.Corresponds (first second : Sighting) : Prop where
  descent : first.descent = second.descent
  declaration : first.symbol.declaration = second.symbol.declaration
  location : first.symbol.location = second.symbol.location
  context : Frame.Thinned first.symbol.context second.symbol.context

/-- Each of the first sightings has one that it corresponds to among the second, in the same order. -/
def Sighting.Embed (few many : List Sighting) : Prop :=
  ∃ pairs : List (Sighting × Sighting), pairs.map (·.1) = few ∧ (pairs.map (·.2)).Sublist many ∧
    ∀ pair ∈ pairs, pair.1.Corresponds pair.2

namespace Sighting.Embed

theorem nil (many : List Sighting) : Embed [] many :=
  ⟨[], rfl, List.nil_sublist _, fun _ h => nomatch h⟩

theorem append {few₁ many₁ few₂ many₂ : List Sighting} (h₁ : Embed few₁ many₁) (h₂ : Embed few₂ many₂) :
    Embed (few₁ ++ few₂) (many₁ ++ many₂) := by
  obtain ⟨pairs₁, rfl, hsublist₁, hcorresponds₁⟩ := h₁
  obtain ⟨pairs₂, rfl, hsublist₂, hcorresponds₂⟩ := h₂
  refine ⟨pairs₁ ++ pairs₂, List.map_append, ?_, fun pair hpair => ?_⟩
  · rw [List.map_append]
    exact hsublist₁.append hsublist₂
  · rcases List.mem_append.mp hpair with hpair | hpair
    · exact hcorresponds₁ pair hpair
    · exact hcorresponds₂ pair hpair

theorem flatMap {α : Type} {few many : α → List Sighting} : ∀ {list : List α},
    (∀ a ∈ list, Embed (few a) (many a)) → Embed (list.flatMap few) (list.flatMap many)
  | [], _ => nil []
  | a :: rest, h => by
    obtain ⟨ha, hrest⟩ := List.forall_mem_cons.mp h
    exact ha.append (flatMap hrest)

/-- The declarations with their locations are a subsequence. -/
theorem sublist {few many : List Sighting} (h : Embed few many) :
    (few.map fun sighting => (sighting.symbol.declaration, sighting.symbol.location)).Sublist
      (many.map fun sighting => (sighting.symbol.declaration, sighting.symbol.location)) := by
  obtain ⟨pairs, rfl, hsublist, hcorresponds⟩ := h
  have hsame : (pairs.map (·.1)).map
        (fun sighting => (sighting.symbol.declaration, sighting.symbol.location)) =
      (pairs.map (·.2)).map fun sighting => (sighting.symbol.declaration, sighting.symbol.location) := by
    rw [List.map_map, List.map_map]
    refine List.map_congr_left fun pair hpair => ?_
    exact Prod.ext (hcorresponds pair hpair).declaration (hcorresponds pair hpair).location
  rw [hsame]
  exact hsublist.map _

end Sighting.Embed

namespace Scene

/-- The same scene in another dialect. -/
def inDialect (scene : Scene) (dialect : Markup.Dialect) : Scene :=
  { scene with dialect }

/-- The symbol that a declaration with some documentation makes at a node. -/
def sighting (scene : Scene) (descent : Descent) (documentation : Documentation) (declaration : Declaration) :
    Sighting :=
  ⟨descent, declaration, scene.contextOf descent, documentation, scene.table.locate descent.last.node.start⟩

/-- The symbols that a reachable node yields. -/
def sightingsAt (scene : Scene) (descent : Descent) : List Sighting :=
  (scene.symbolsIn (scene.contextOf descent) descent.last.toPlace).map (⟨descent, ·⟩)

theorem sightingsAt_of_document? {scene : Scene} {descent : Descent} {documentation : Documentation}
    (h : scene.document? descent.last.toPlace = some documentation) :
    scene.sightingsAt descent =
      (Extract.declarations scene.source descent.last.node).map (scene.sighting descent documentation) := by
  simp [sightingsAt, symbolsIn, declared, h, sighting, Function.comp_def]

/-- The symbols of a tree with the nodes that they come from, in document order. -/
def sightings (scene : Scene) (root : Node) : List Sighting :=
  (root.descents.filter (·.Reachable)).flatMap scene.sightingsAt

theorem walk_sightings (scene : Scene) (root : Node) : ∃ found, scene.walk root = .ok found ∧
    found.symbols = (scene.sightings root).map (·.symbol) ∧
    found.imports = (root.descents.filter (·.Reachable)).flatMap fun descent =>
      (Extract.import? scene.source descent.last.node).toList := by
  refine ⟨_, scene.walk_eq root, ?_, ?_⟩
  · simp [Walk.add, filterMap_symbol?_entriesBelow, sightings, sightingsAt, List.map_flatMap,
      Function.comp_def]
  · simp only [Walk.add, List.nil_append, filterMap_import?_entriesBelow]

/-! ### The two walks at one node -/

theorem document?_eq_some {scene : Scene} {place : Place} {documentation : Documentation} :
    scene.document? place = some documentation ↔
      ∃ comment, Comment.above? scene.source place = some comment ∧
        scene.dialect comment = .ok documentation := by
  unfold document?
  cases Comment.above? scene.source place with
  | none => simp
  | some comment => cases hread : scene.dialect comment <;> simp [hread, Except.toOption]

section

variable {scene : Scene} {first second : Markup.Dialect}

theorem exists_document?_of_within (h : first.Within second) {place : Place} {documentation : Documentation}
    (hfirst : (scene.inDialect first).document? place = some documentation) :
    ∃ other, (scene.inDialect second).document? place = some other := by
  obtain ⟨comment, habove, hread⟩ := document?_eq_some.mp hfirst
  obtain ⟨other, hother⟩ := h comment ⟨documentation, hread⟩
  exact ⟨other, document?_eq_some.mpr ⟨comment, habove, hother⟩⟩

theorem thinned_containerFrame? (h : first.Within second) (place : Place) (declaration : Option Declaration) :
    Frame.Thinned ((scene.inDialect first).containerFrame? place declaration).toList
      ((scene.inDialect second).containerFrame? place declaration).toList := by
  unfold containerFrame?
  cases hfirst : (scene.inDialect first).document? place with
  | some documentation =>
    obtain ⟨other, hsecond⟩ := exists_document?_of_within h hfirst
    rw [hsecond]
    exact .refl _
  | none =>
    -- The first dialect has no frame here; the second may have one, a container.
    cases (scene.inDialect second).document? place with
    | none => exact .nil
    | some other =>
      cases declaration with
      | none => exact .nil
      | some declaration => exact .drop _ .nil

/-- A node puts the same frame around what is below it, or a container that the first dialect leaves
out. -/
theorem thinned_frame? (h : first.Within second) (place : Place) :
    Frame.Thinned ((scene.inDialect first).frame? place).toList
      ((scene.inDialect second).frame? place).toList := by
  cases hextension : Extract.extension? scene.source place.node with
  | some extension =>
    simp only [frame?, inDialect, hextension]
    exact .refl _
  | none =>
    simp only [frame?, inDialect, hextension]
    exact thinned_containerFrame? h place _

theorem thinned_contextOf (h : first.Within second) (descent : Descent) :
    Frame.Thinned ((scene.inDialect first).contextOf descent)
      ((scene.inDialect second).contextOf descent) := by
  refine .append (.flatMap fun step _ => ?_) (.refl _)
  exact .append (.refl _) (thinned_frame? h step.toPlace)

theorem embed_sightingsAt (h : first.Within second) (descent : Descent) :
    Sighting.Embed ((scene.inDialect first).sightingsAt descent)
      ((scene.inDialect second).sightingsAt descent) := by
  cases hfirst : (scene.inDialect first).document? descent.last.toPlace with
  | none =>
    have hnone : (scene.inDialect first).sightingsAt descent = [] := by
      simp [sightingsAt, symbolsIn, declared, hfirst]
    rw [hnone]
    exact .nil _
  | some documentation =>
    obtain ⟨other, hsecond⟩ := exists_document?_of_within h hfirst
    rw [sightingsAt_of_document? hfirst, sightingsAt_of_document? hsecond]
    refine ⟨(Extract.declarations scene.source descent.last.node).map fun declaration =>
      ((scene.inDialect first).sighting descent documentation declaration,
        (scene.inDialect second).sighting descent other declaration), ?_, ?_, fun pair hpair => ?_⟩
    · rw [List.map_map]
      rfl
    · rw [List.map_map]
      exact List.Sublist.refl _
    · obtain ⟨declaration, -, rfl⟩ := List.mem_map.mp hpair
      exact ⟨rfl, rfl, rfl, thinned_contextOf h descent⟩

end

/-- The imports are the same in all dialects. In a dialect that accepts whatever another accepts, the
symbols that the other finds are found too, at the same nodes and in the same order, and their contexts
there are the same but for containers that the other leaves out. -/
theorem walk_dialects (scene : Scene) (root : Node) (first second : Markup.Dialect) :
    ∃ few many, (scene.inDialect first).walk root = .ok few ∧ (scene.inDialect second).walk root = .ok many ∧
      few.imports = many.imports ∧
      few.symbols = ((scene.inDialect first).sightings root).map (·.symbol) ∧
      many.symbols = ((scene.inDialect second).sightings root).map (·.symbol) ∧
      (first.Within second →
        (few.symbols.map fun s => (s.declaration, s.location)).Sublist
            (many.symbols.map fun s => (s.declaration, s.location)) ∧
          Sighting.Embed ((scene.inDialect first).sightings root)
            ((scene.inDialect second).sightings root)) := by
  obtain ⟨few, hfew, hfewSymbols, hfewImports⟩ := (scene.inDialect first).walk_sightings root
  obtain ⟨many, hmany, hmanySymbols, hmanyImports⟩ := (scene.inDialect second).walk_sightings root
  refine ⟨few, many, hfew, hmany, hfewImports.trans hmanyImports.symm, hfewSymbols, hmanySymbols, fun h => ?_⟩
  have hembed : Sighting.Embed ((scene.inDialect first).sightings root)
      ((scene.inDialect second).sightings root) := .flatMap fun descent _ => embed_sightingsAt h descent
  refine ⟨?_, hembed⟩
  rw [hfewSymbols, hmanySymbols, List.map_map, List.map_map]
  exact hembed.sublist

open Node in
/-- Of a protocol and its member, the first dialect accepts the comment of the member only. -/
theorem walk_dialects_protocol :
    let source := "/// a\nprotocol P \x7b\n/// b\nassociatedtype T \x7d".toList
    let member := Node.mk (bare .associatedTypeDeclaration 25 41).info [bare .typeIdentifier 40 41]
    let outer := Node.mk (bare .protocolDeclaration 6 43).info
      [bare .typeIdentifier 15 16, bare .comment 19 24, member]
    let root := Node.mk (bare .functionBody 0 43).info [bare .comment 0 5, outer]
    let strict : Markup.Dialect := fun comment =>
      if comment = "/// b" then .ok { summary := some comment } else .error .empty
    let lax : Markup.Dialect := fun comment => .ok { summary := some comment }
    let scene : Scene := ⟨source, .ofSource "P.swift" source, lax⟩
    strict.Within lax ∧ ∃ few many, (scene.inDialect strict).walk root = .ok few ∧
      (scene.inDialect lax).walk root = .ok many ∧
      few.symbols.map (fun s => (s.name, s.context.length)) = [("T", 0)] ∧
      many.symbols.map (fun s => (s.name, s.context.length)) = [("P", 0), ("T", 1)] ∧
      Sighting.Embed ((scene.inDialect strict).sightings root) ((scene.inDialect lax).sightings root) := by
  intro source member outer root strict lax scene
  have hwithin : strict.Within lax := fun comment _ => ⟨_, rfl⟩
  obtain ⟨few, many, hfew, hmany, -, -, -, hsymbols⟩ := scene.walk_dialects root strict lax
  have hfewNames : ((scene.inDialect strict).walk root).toOption.map
      (fun found => found.symbols.map fun s => (s.name, s.context.length)) = some [("T", 0)] := by
    decide +kernel
  have hmanyNames : ((scene.inDialect lax).walk root).toOption.map
      (fun found => found.symbols.map fun s => (s.name, s.context.length)) = some [("P", 0), ("T", 1)] := by
    decide +kernel
  rw [hfew] at hfewNames
  rw [hmany] at hmanyNames
  exact ⟨hwithin, few, many, hfew, hmany, Option.some.inj hfewNames, Option.some.inj hmanyNames,
    (hsymbols hwithin).2⟩

end Scene

end DocIndex
