import DocIndex.Index.SourceFile
import DocIndex.Proofs.Index.Dialects
import DocIndex.Proofs.Location
import DocIndex.Proofs.Tree.Fault

/-! # What tells symbols apart

A symbol is identified by file, qualified name, line and column, written one after another with colons
between them. Line and column hold no colon, so they can be read off from the end, whatever the names
hold. Symbols of one file at different offsets, or of one node with different names, differ there
(`SourceFile.identity_ne`). -/

namespace DocIndex

/-! ### Reading an identity from its end -/

theorem append_cons_inj_of_not_mem {α : Type} {a : α} {before other after rest : List α}
    (h : before ++ a :: after = other ++ a :: rest) (hafter : a ∉ after) (hrest : a ∉ rest) :
    before = other ∧ after = rest := by
  rcases List.append_eq_append_iff.mp h with ⟨more, rfl, hmore⟩ | ⟨more, rfl, hmore⟩
  · cases more with
    | nil => simp_all
    | cons first more =>
      obtain ⟨-, rfl⟩ := List.cons.inj hmore
      simp at hafter
  · cases more with
    | nil => simp_all
    | cons first more =>
      obtain ⟨-, rfl⟩ := List.cons.inj hmore
      simp at hrest

theorem toDigits_injective {m n : Nat} (h : Nat.toDigits 10 m = Nat.toDigits 10 n) : m = n := by
  rw [← Nat.ofDigitChars_ten_toDigits (n := m), h, Nat.ofDigitChars_ten_toDigits]

theorem colon_not_mem_toDigits (n : Nat) : ':' ∉ Nat.toDigits 10 n := fun h =>
  absurd (Nat.isDigit_of_mem_toDigits (by decide) (by decide) h) (by decide)

namespace Symbol

theorem toList_identity (s : Symbol) :
    s.identity.toList =
      (s.location.file.toList ++ ':' :: s.qualifiedName.toList ++ ':' :: Nat.toDigits 10 s.location.line) ++
        ':' :: Nat.toDigits 10 s.location.column := by
  simp [identity]

/-- Symbols of one file with the same identity have all its parts in common. -/
theorem identity_inj {s t : Symbol} (hfile : s.location.file = t.location.file)
    (h : s.identity = t.identity) :
    s.qualifiedName = t.qualifiedName ∧ s.location.line = t.location.line ∧
      s.location.column = t.location.column := by
  have htext := congrArg String.toList h
  rw [toList_identity, toList_identity] at htext
  obtain ⟨htext, hcolumn⟩ :=
    append_cons_inj_of_not_mem htext (colon_not_mem_toDigits _) (colon_not_mem_toDigits _)
  obtain ⟨htext, hline⟩ :=
    append_cons_inj_of_not_mem htext (colon_not_mem_toDigits _) (colon_not_mem_toDigits _)
  rw [hfile, List.append_cancel_left_eq, List.cons.injEq] at htext
  exact ⟨String.toList_inj.mp htext.2, toDigits_injective hline, toDigits_injective hcolumn⟩

/-- In one context the qualified name tells the name. -/
theorem name_eq_of_qualifiedName {s t : Symbol} (hcontext : s.context = t.context)
    (h : s.qualifiedName = t.qualifiedName) : s.name = t.name := by
  unfold qualifiedName at h
  rw [hcontext] at h
  cases hscopes : t.context.filterMap (·.scopeName?) with
  | nil => simpa [hscopes] using h
  | cons scope scopes =>
    rw [hscopes, String.intercalate_append_of_ne_nil (by simp) (by simp),
      String.intercalate_append_of_ne_nil (by simp) (by simp)] at h
    have htext := congrArg String.toList h
    exact String.toList_inj.mp (by simpa using htext)

end Symbol

/-! ### Symbols of one file -/

namespace Scene

section

variable {scene : Scene} {root : Node} {sighting : Sighting} (h : sighting ∈ scene.sightings root)
include h

theorem descent_mem_of_mem_sightings : sighting.descent ∈ root.descents := by
  obtain ⟨descent, hdescent, hsighting⟩ := List.mem_flatMap.mp h
  obtain ⟨s, -, rfl⟩ := List.mem_map.mp hsighting
  exact (List.mem_filter.mp hdescent).1

/-- A symbol has the context and the location of its node. -/
theorem symbol_of_mem_sightings :
    sighting.symbol.context = scene.contextOf sighting.descent ∧
      sighting.symbol.location = scene.table.locate sighting.descent.last.node.start := by
  obtain ⟨descent, -, hsighting⟩ := List.mem_flatMap.mp h
  cases hdocument : scene.document? descent.last.toPlace with
  | none => simp [sightingsAt, symbolsIn, declared, hdocument] at hsighting
  | some documentation =>
    rw [sightingsAt_of_document? hdocument] at hsighting
    obtain ⟨declaration, -, rfl⟩ := List.mem_map.mp hsighting
    exact ⟨rfl, rfl⟩

end

theorem mem_sightings_of_mem_sightingsAt {scene : Scene} {root : Node} {descent : Descent}
    (hdescent : descent ∈ root.descents) (hreachable : descent.Reachable) {sighting : Sighting}
    (h : sighting ∈ scene.sightingsAt descent) :
    sighting ∈ scene.sightings root ∧ sighting.descent = descent := by
  refine ⟨List.mem_flatMap.mpr ⟨descent, List.mem_filter.mpr ⟨hdescent, by simpa using hreachable⟩, h⟩, ?_⟩
  obtain ⟨s, -, rfl⟩ := List.mem_map.mp h
  rfl

/-- What a walk over a document reads. -/
def ofDocument (dialect : Markup.Dialect) (path : String) (document : Document) : Scene :=
  ⟨document.source, .ofSource path document.source, dialect⟩

end Scene

namespace SourceFile

theorem symbols_eq_sightings {dialect : Markup.Dialect} {allowFaults : Bool} {path : String}
    {document : Document} {file : SourceFile}
    (h : ofDocument dialect allowFaults path document = .ok file) :
    file.symbols = ((Scene.ofDocument dialect path document).sightings document.tree).map (·.symbol) := by
  obtain ⟨found, hwalk, hsymbols, -⟩ :=
    (Scene.ofDocument dialect path document).walk_sightings document.tree
  unfold ofDocument at h
  split at h
  next => cases h
  next tree haccept =>
    rw [Scene.ofDocument] at hwalk
    rw [Document.tree_eq_of_accept haccept] at h
    simp only [hwalk, Except.ok.injEq] at h
    rw [← h, hsymbols]

/-- Symbols of one file from nodes that start at different offsets, or from one node under different names,
have different identities, whatever the names hold. If no two identities in the file share a digest, then
their identifiers differ too. -/
theorem identity_ne (dialect : Markup.Dialect) (allowFaults : Bool) (path : String) (document : Document)
    (file : SourceFile) (hfile : ofDocument dialect allowFaults path document = .ok file)
    (hinside : ∀ place ∈ document.tree.places, place.node.start ≤ Text.byteLength document.source) :
    let sightings := (Scene.ofDocument dialect path document).sightings document.tree
    file.symbols = sightings.map (·.symbol) ∧
      ∀ first ∈ sightings, ∀ second ∈ sightings,
        (first.descent.last.node.start ≠ second.descent.last.node.start ∨
          first.descent = second.descent ∧ first.symbol.name ≠ second.symbol.name) →
        first.symbol.identity ≠ second.symbol.identity ∧
          ((∀ s ∈ file.symbols, ∀ t ∈ file.symbols, Md5.hex s.identity = Md5.hex t.identity →
              s.identity = t.identity) →
            first.symbol.id ≠ second.symbol.id) := by
  intro sightings
  have hsymbols := symbols_eq_sightings hfile
  refine ⟨hsymbols, fun first hfirst second hsecond hdiffer => ?_⟩
  have hstart (sighting : Sighting) (h : sighting ∈ sightings) :
      sighting.descent.last.node.start ≤ Text.byteLength document.source := by
    refine hinside sighting.descent.last.toPlace ?_
    rw [document.tree.places_eq]
    exact List.mem_cons_of_mem _ (List.mem_map_of_mem (Scene.descent_mem_of_mem_sightings h))
  obtain ⟨hfirstContext, hfirstLocation⟩ := Scene.symbol_of_mem_sightings hfirst
  obtain ⟨hsecondContext, hsecondLocation⟩ := Scene.symbol_of_mem_sightings hsecond
  have hidentity : first.symbol.identity ≠ second.symbol.identity := by
    intro hsame
    obtain ⟨hqualified, hline, hcolumn⟩ :=
      Symbol.identity_inj (by rw [hfirstLocation, hsecondLocation]; rfl) hsame
    rcases hdiffer with hoffset | ⟨hdescent, hname⟩
    · rw [hfirstLocation, hsecondLocation] at hline hcolumn
      exact hoffset (LineTable.locate_injective (hstart first hfirst) (hstart second hsecond) hline hcolumn)
    · have hcontext : first.symbol.context = second.symbol.context := by
        rw [hfirstContext, hsecondContext, hdescent]
      exact hname (Symbol.name_eq_of_qualifiedName hcontext hqualified)
  refine ⟨hidentity, fun hcollision hid => hidentity ?_⟩
  refine hcollision _ ?_ _ ?_ hid
  · rw [hsymbols]
    exact List.mem_map_of_mem hfirst
  · rw [hsymbols]
    exact List.mem_map_of_mem hsecond

open Node in
/-- One declaration of two properties, and another one of the first name further down. -/
theorem identity_ne_properties :
    let source := "/// a\nvar x, y\n/// b\nvar x".toList
    let pair := Node.mk (bare .propertyDeclaration 6 14).info [bare .pattern 10 11, bare .pattern 13 14]
    let single := Node.mk (bare .propertyDeclaration 21 26).info [bare .pattern 25 26]
    let root := Node.mk (bare .functionBody 0 26).info [bare .comment 0 5, pair, bare .comment 15 20, single]
    let lax : Markup.Dialect := fun comment => .ok { summary := some comment }
    let document : Document := ⟨source, root⟩
    let sightings := (Scene.ofDocument lax "a:1.swift" document).sightings root
    (∀ place ∈ root.places, place.node.start ≤ Text.byteLength source) ∧
      ∃ file, ofDocument lax false "a:1.swift" document = .ok file ∧
        ∃ first ∈ sightings, ∃ second ∈ sightings, ∃ third ∈ sightings,
        (first.descent = second.descent ∧ first.symbol.name ≠ second.symbol.name) ∧
        second.descent.last.node.start ≠ third.descent.last.node.start ∧
        first.symbol.identity ≠ second.symbol.identity ∧ second.symbol.identity ≠ third.symbol.identity := by
  intro source pair single root lax document sightings
  have hinside : ∀ place ∈ root.places, place.node.start ≤ Text.byteLength source := by
    decide +kernel
  let upper : Descent := ⟨[], ⟨⟨[bare .comment 0 5], pair⟩, [bare .comment 15 20, single]⟩⟩
  let lower : Descent := ⟨[], ⟨⟨[bare .comment 15 20, pair, bare .comment 0 5], single⟩, []⟩⟩
  have hupper : upper ∈ root.descents := by
    simp [root, Node.descents, descentsAfter, upper]
  have hlower : lower ∈ root.descents := by
    simp [root, Node.descents, descentsAfter, lower]
  have hnames : ((Scene.ofDocument lax "a:1.swift" document).sightingsAt upper).map (·.symbol.name) =
      ["x", "y"] := by
    decide +kernel
  have hname : ((Scene.ofDocument lax "a:1.swift" document).sightingsAt lower).map (·.symbol.name) =
      ["x"] := by
    decide +kernel
  obtain ⟨first, rest, hfound, hfirstName, hrest⟩ := List.map_eq_cons_iff.mp hnames
  obtain ⟨second, rest, rfl, hsecondName, -⟩ := List.map_eq_cons_iff.mp hrest
  obtain ⟨third, rest, hfoundBelow, -, -⟩ := List.map_eq_cons_iff.mp hname
  obtain ⟨hfirst, hfirstDescent⟩ := Scene.mem_sightings_of_mem_sightingsAt hupper (by decide)
    (hfound ▸ List.mem_cons_self)
  obtain ⟨hsecond, hsecondDescent⟩ := Scene.mem_sightings_of_mem_sightingsAt hupper (by decide)
    (hfound ▸ List.mem_cons_of_mem _ List.mem_cons_self)
  obtain ⟨hthird, hthirdDescent⟩ := Scene.mem_sightings_of_mem_sightingsAt hlower (by decide)
    (hfoundBelow ▸ List.mem_cons_self)
  have hsame : first.descent = second.descent ∧ first.symbol.name ≠ second.symbol.name :=
    ⟨hfirstDescent.trans hsecondDescent.symm, by rw [hfirstName, hsecondName]; decide⟩
  have hstart : second.descent.last.node.start ≠ third.descent.last.node.start := by
    rw [hsecondDescent, hthirdDescent]
    decide
  have hread : (ofDocument lax false "a:1.swift" document).toOption.isSome := by
    decide +kernel
  cases hfile : ofDocument lax false "a:1.swift" document with
  | error error => simp [hfile, Except.toOption] at hread
  | ok file =>
    obtain ⟨-, hdiffer⟩ := identity_ne lax false "a:1.swift" document file hfile hinside
    exact ⟨hinside, file, rfl, first, hfirst, second, hsecond, third, hthird, hsame, hstart,
      (hdiffer first hfirst second hsecond (.inr hsame)).1, (hdiffer second hsecond third hthird (.inl hstart)).1⟩

end SourceFile

end DocIndex
