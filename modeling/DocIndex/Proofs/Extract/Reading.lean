import DocIndex.Extract.Reading

/-! # Readings agree with the extractors

The reading of a node is chosen by its kind, and each extractor checks the kind again. The two agree
(`Node.reading_describes`): whatever any extractor yields for a node is in its reading, and the reading
holds nothing else. -/

namespace DocIndex

/-- Whether nodes of this kind are read without their children. -/
def NodeKind.isLeaf : NodeKind → Bool
  | functionDeclaration | protocolFunctionDeclaration | initDeclaration | subscriptDeclaration
  | propertyDeclaration | protocolPropertyDeclaration | enumEntry | typealiasDeclaration
  | associatedTypeDeclaration | precedenceGroupDeclaration | importDeclaration | deinitDeclaration
  | operatorDeclaration => true
  | _ => false

/-! ### Nodes of other kinds -/

namespace Extract

variable {source : List Char} {node : Node}

@[simp]
theorem nominal?_eq_none (h : node.kind ≠ .typeDeclaration) : nominal? source node = none := by
  simp [nominal?, h]

@[simp]
theorem extension?_eq_none (h : node.kind ≠ .typeDeclaration) : extension? source node = none := by
  simp [extension?, h]

@[simp]
theorem protocol?_eq_none (h : node.kind ≠ .protocolDeclaration) : protocol? source node = none := by
  simp [protocol?, h]

@[simp]
theorem function?_eq_none (h : node.kind ≠ .functionDeclaration)
    (h' : node.kind ≠ .protocolFunctionDeclaration) : function? source node = none := by
  simp [function?, h, h']

@[simp]
theorem initializer?_eq_none (h : node.kind ≠ .initDeclaration) : initializer? source node = none := by
  simp [initializer?, h]

@[simp]
theorem subscript?_eq_none (h : node.kind ≠ .subscriptDeclaration) : subscript? source node = none := by
  simp [subscript?, h]

@[simp]
theorem properties_eq_nil (h : node.kind ≠ .propertyDeclaration)
    (h' : node.kind ≠ .protocolPropertyDeclaration) : properties source node = [] := by
  simp [properties, h, h']

@[simp]
theorem enumerationCases_eq_nil (h : node.kind ≠ .enumEntry) : enumerationCases source node = [] := by
  simp [enumerationCases, h]

@[simp]
theorem typeAlias?_eq_none (h : node.kind ≠ .typealiasDeclaration) : typeAlias? source node = none := by
  simp [typeAlias?, h]

@[simp]
theorem associatedType?_eq_none (h : node.kind ≠ .associatedTypeDeclaration) :
    associatedType? source node = none := by
  simp [associatedType?, h]

@[simp]
theorem precedenceGroup?_eq_none (h : node.kind ≠ .precedenceGroupDeclaration) :
    precedenceGroup? source node = none := by
  simp [precedenceGroup?, h]

@[simp]
theorem import?_eq_none (h : node.kind ≠ .importDeclaration) : import? source node = none := by
  simp [import?, h]

/-- A node that some keyword introduces is a type only if the keyword is that of a type. -/
theorem nominal?_eq_none_of_keyword
    (h : ∀ keyword, keyword? source node = some keyword → nominalSort? keyword = none) :
    nominal? source node = none := by
  cases hkeyword : keyword? source node with
  | none => simp [nominal?, hkeyword]
  | some keyword => simp [nominal?, hkeyword, h keyword hkeyword]

/-- A node that some keyword introduces is an extension only if the keyword says so. -/
theorem extension?_eq_none_of_keyword (h : keyword? source node ≠ some "extension") :
    extension? source node = none := by
  cases hkeyword : keyword? source node with
  | none => simp [extension?, hkeyword]
  | some keyword =>
    have : keyword ≠ "extension" := fun he => h (he ▸ hkeyword)
    simp [extension?, hkeyword, this]

end Extract

/-! ### What a reading holds -/

namespace Reading

/-- The declarations in a reading. -/
@[simp]
def declarations : Reading → List Declaration
  | container declaration => declaration.toList
  | leaf declarations => declarations
  | _ => []

/-- The import in a reading. -/
@[simp]
def import? : Reading → Option Import
  | imported entry => entry
  | _ => none

/-- The type or protocol in a reading. -/
@[simp]
def container? : Reading → Option Declaration
  | container declaration => declaration
  | _ => none

/-- The extension in a reading. -/
@[simp]
def extension? : Reading → Option Extension
  | extension found => found
  | _ => none

/-- Whether a reading leaves out the children. -/
@[simp]
def isLeaf : Reading → Bool
  | leaf _ | imported _ => true
  | _ => false

/-- The reading holds what the extractors yield for the node, and leaves out the children of exactly the
kinds for which it should. -/
structure Describes (source : List Char) (node : Node) (reading : Reading) : Prop where
  declarations : Extract.declarations source node = reading.declarations
  imported : Extract.import? source node = reading.import?
  container? : (Extract.nominal? source node <|> Extract.protocol? source node) = reading.container?
  extension? : Extract.extension? source node = reading.extension?
  isLeaf : node.kind.isLeaf = reading.isLeaf

end Reading

open Extract in
/-- A class, structure, enumeration, extension or actor is told apart by its keyword. -/
theorem Node.reading_describes_of_typeDeclaration {source : List Char} {node : Node}
    (hkind : node.kind = .typeDeclaration) : (node.reading source).Describes source node := by
  have hdeclarations : Extract.declarations source node = (nominal? source node).toList := by
    simp [Extract.declarations, hkind]
  have hleaf : node.kind.isLeaf = false := by rw [hkind]; rfl
  have hcontainer : keyword? source node ≠ some "extension" →
      (Reading.container (nominal? source node)).Describes source node := fun hkeyword =>
    ⟨hdeclarations, by simp [hkind], by simp [hkind], extension?_eq_none_of_keyword hkeyword, hleaf⟩
  simp only [reading, hkind]
  split
  next hkeyword => exact hcontainer (by simp [hkeyword])
  next hkeyword => exact hcontainer (by simp [hkeyword])
  next hkeyword => exact hcontainer (by simp [hkeyword])
  next hkeyword =>
    have hnone : nominal? source node = none := nominal?_eq_none_of_keyword fun keyword h => by
      obtain rfl : "extension" = keyword := Option.some.inj (hkeyword.symm.trans h)
      rfl
    exact ⟨by simp [hdeclarations, hnone], by simp [hkind], by simp [hnone, hkind], rfl, hleaf⟩
  next hclass hstruct henum hextension =>
    have hnone : nominal? source node = none := nominal?_eq_none_of_keyword fun keyword h => by
      unfold nominalSort?
      split
      · exact absurd h hclass
      · exact absurd h hstruct
      · exact absurd h henum
      · rfl
    exact ⟨by simp [hdeclarations, hnone], by simp [hkind], by simp [hnone, hkind],
      extension?_eq_none_of_keyword hextension, hleaf⟩

open Extract in
theorem Node.reading_describes (source : List Char) (node : Node) :
    (node.reading source).Describes source node := by
  by_cases hkind : node.kind = .typeDeclaration
  · exact reading_describes_of_typeDeclaration hkind
  · unfold reading
    split
    next h => exact absurd h hkind
    -- Each extractor but the one for the kind at hand refuses the node.
    all_goals
      try simp only [imp_false] at *
      constructor <;> simp [Extract.declarations, NodeKind.isLeaf, *]

end DocIndex
