import DocIndex.Proofs.Condition.Written

/-! # The clauses around an item

Which clauses enclose an item can be read off the tokens before it and after it. Those before it say
which clauses are open (`Token.reopen`), and those after it say which branches their blocks still have
(`Token.branchesAhead`). Grouping puts every item inside exactly these clauses (`enclosed_group`). -/

namespace DocIndex

variable {α : Type}

/-- A clause around an item: the directive that opens its block, all branches of the block, and its own
branch. -/
structure Enclosure (α : Type) where
  directive : α
  branches : List Branch
  branch : Branch
  deriving DecidableEq, Repr

/-! ### Clauses in the elements -/

mutual

/-- The items in an element from left to right, each with the clauses around it, the outermost first.
The clauses of `around` are around the whole element. -/
def Element.enclosed (around : List (Enclosure α)) : Element α → List (List (Enclosure α) × α)
  | .item value => [(around, value)]
  | .block directive clauses => enclosedOfClauses around directive (clauses.map (·.1)) clauses

def enclosedOfClauses (around : List (Enclosure α)) (directive : α) (branches : List Branch) :
    List (Branch × List (Element α)) → List (List (Enclosure α) × α)
  | [] => []
  | (branch, elements) :: rest =>
    enclosedOfElements (around ++ [⟨directive, branches, branch⟩]) elements ++
      enclosedOfClauses around directive branches rest

def enclosedOfElements (around : List (Enclosure α)) :
    List (Element α) → List (List (Enclosure α) × α)
  | [] => []
  | element :: rest => element.enclosed around ++ enclosedOfElements around rest

end

/-! ### Clauses in the tokens -/

/-- A clause that is open between two tokens: the directive that opens its block, the branches of the
block before its own, and its own. -/
structure OpenClause (α : Type) where
  directive : α
  earlier : List Branch
  branch : Branch
  deriving DecidableEq, Repr

namespace OpenClause

def next (clause : OpenClause α) (branch : Branch) : OpenClause α :=
  { clause with earlier := clause.earlier ++ [clause.branch], branch }

/-- The clause with the branches that its block still has. -/
def enclosure (clause : OpenClause α) (later : List Branch) : Enclosure α :=
  ⟨clause.directive, clause.earlier ++ clause.branch :: later, clause.branch⟩

end OpenClause

namespace Token

/-- The open clauses after a token, the innermost first, given those before it. -/
def reopen (clauses : List (OpenClause α)) : Token α → List (OpenClause α)
  | .item _ => clauses
  | .ifTrue directive condition => ⟨directive, [], .ifTrue condition⟩ :: clauses
  | .elseIf condition => clauses.modifyHead (·.next (.elseIf condition))
  | .otherwise => clauses.modifyHead (·.next .otherwise)
  | .endIf => clauses.tail

/-- The branches that an open block still has in some tokens, if `inner` more blocks are open inside
it. -/
def branchesAhead : Nat → List (Token α) → List Branch
  | _, [] => []
  | inner, .item _ :: rest => branchesAhead inner rest
  | inner, .ifTrue _ _ :: rest => branchesAhead (inner + 1) rest
  | 0, .elseIf condition :: rest => .elseIf condition :: branchesAhead 0 rest
  | inner + 1, .elseIf _ :: rest => branchesAhead (inner + 1) rest
  | 0, .otherwise :: rest => .otherwise :: branchesAhead 0 rest
  | inner + 1, .otherwise :: rest => branchesAhead (inner + 1) rest
  | 0, .endIf :: _ => []
  | inner + 1, .endIf :: rest => branchesAhead inner rest

/-- The open clauses with the branches ahead of each, the outermost first. The clauses come with the
innermost first, and `inner` more blocks are open inside the first of them. -/
def enclosuresFrom (ahead : List (Token α)) : Nat → List (OpenClause α) → List (Enclosure α)
  | _, [] => []
  | inner, clause :: outer =>
    enclosuresFrom ahead (inner + 1) outer ++ [clause.enclosure (branchesAhead inner ahead)]

/-- The clauses around a place among tokens, the outermost first, given the clauses that the tokens
before it leave open and the tokens after it. -/
def enclosures (clauses : List (OpenClause α)) (ahead : List (Token α)) : List (Enclosure α) :=
  enclosuresFrom ahead 0 clauses

def enclosed (clauses : List (OpenClause α)) : List (Token α) → List (List (Enclosure α) × α)
  | [] => []
  | token :: rest =>
    (token.item?.map fun value => (enclosures clauses rest, value)).toList ++
      enclosed (token.reopen clauses) rest

theorem length_reopen (clauses : List (OpenClause α)) (token : Token α) :
    (token.reopen clauses).length = token.depth clauses.length := by
  cases token <;> simp [reopen, depth]

theorem reopen_of_isStray {token : Token α} (h : token.isStray 0 = true) : token.reopen [] = [] := by
  cases token <;> first | rfl | simp [isStray] at h

theorem enclosuresFrom_congr {first second : List (Token α)} : ∀ {m n : Nat} {clauses : List (OpenClause α)},
    (∀ k < clauses.length, branchesAhead (m + k) first = branchesAhead (n + k) second) →
      enclosuresFrom first m clauses = enclosuresFrom second n clauses
  | _, _, [], _ => rfl
  | m, n, clause :: outer, h => by
    have houter : ∀ k < outer.length,
        branchesAhead (m + 1 + k) first = branchesAhead (n + 1 + k) second := fun k hk => by
      have := h (k + 1) (by simpa using hk)
      rwa [Nat.add_assoc, Nat.add_assoc, Nat.add_comm 1 k]
    have hhead := h 0 (by simp)
    rw [Nat.add_zero, Nat.add_zero] at hhead
    rw [enclosuresFrom, enclosuresFrom, enclosuresFrom_congr houter, hhead]

/-! ### Settled tokens -/

theorem branchesAhead_replicate_endIf : ∀ inner n : Nat,
    branchesAhead inner (List.replicate n (.endIf : Token α)) = []
  | _, 0 => by simp [branchesAhead]
  | 0, n + 1 => by simp [List.replicate_succ, branchesAhead]
  | inner + 1, n + 1 => by
    rw [List.replicate_succ, branchesAhead, branchesAhead_replicate_endIf inner n]

theorem settled_cons_of_not_isStray {before : Nat} {token : Token α} (h : token.isStray before = false)
    (rest : List (Token α)) :
    settled before (token :: rest) = token :: settled (token.depth before) rest := by
  simp [settled, withoutStrays, depthAfter, h]

theorem settled_cons_of_isStray {before : Nat} {token : Token α} (h : token.isStray before = true)
    (rest : List (Token α)) :
    settled before (token :: rest) = settled (token.depth before) rest := by
  simp [settled, withoutStrays, depthAfter, h]

/-- The open blocks have the same branches ahead in settled tokens: a stray is in none of them. -/
theorem branchesAhead_settled : ∀ (tokens : List (Token α)) {inner before : Nat}, inner < before →
    branchesAhead inner (settled before tokens) = branchesAhead inner tokens
  | [], inner, before, _ => by
    simpa [settled, withoutStrays, depthAfter] using
      (branchesAhead_replicate_endIf inner before).trans (by simp [branchesAhead])
  | token :: rest, inner, before, h => by
    have hstray : token.isStray before = false := by
      cases token <;> simp [isStray] <;> omega
    rw [settled_cons_of_not_isStray hstray]
    cases token with
    | item value => exact branchesAhead_settled rest h
    | ifTrue directive condition => exact branchesAhead_settled rest (Nat.succ_lt_succ h)
    | elseIf condition | otherwise =>
      cases inner with
      | zero => exact congrArg (List.cons _) (branchesAhead_settled rest h)
      | succ inner => exact branchesAhead_settled rest h
    | endIf =>
      cases inner with
      | zero => rfl
      | succ inner => exact branchesAhead_settled rest (Nat.lt_sub_of_add_lt h)

theorem enclosures_settled (clauses : List (OpenClause α)) (ahead : List (Token α)) :
    enclosures clauses (settled clauses.length ahead) = enclosures clauses ahead :=
  enclosuresFrom_congr fun k hk => branchesAhead_settled ahead (by rwa [Nat.zero_add])

theorem enclosed_replicate_endIf : ∀ (n : Nat) (clauses : List (OpenClause α)),
    enclosed clauses (List.replicate n .endIf) = []
  | 0, _ => rfl
  | n + 1, clauses => enclosed_replicate_endIf n clauses.tail

/-- Settling the tokens moves no item into or out of a clause. -/
theorem enclosed_settled : ∀ (tokens : List (Token α)) (clauses : List (OpenClause α)),
    enclosed clauses (settled clauses.length tokens) = enclosed clauses tokens
  | [], clauses => by
    simpa [settled, withoutStrays, depthAfter, enclosed] using
      enclosed_replicate_endIf clauses.length clauses
  | token :: rest, clauses => by
    have ih := enclosed_settled rest (token.reopen clauses)
    rw [length_reopen] at ih
    cases hstray : token.isStray clauses.length
    · rw [settled_cons_of_not_isStray hstray, enclosed, enclosed, ih]
      cases token with
      | item value => exact congrArg (· ++ _) (by simp [item?, depth, enclosures_settled])
      | _ => rfl
    · -- A stray is no item, and it comes where no clause is open.
      have hnone : clauses = [] := by
        cases clauses with
        | nil => rfl
        | cons clause outer => cases token <;> simp [isStray] at hstray
      subst hnone
      rw [reopen_of_isStray hstray] at ih
      rw [settled_cons_of_isStray hstray, ih, enclosed, item?_of_isStray hstray,
        reopen_of_isStray hstray]
      rfl

/-! ### Tokens of elements -/

/-- Tokens that the blocks around them do not notice: they close what they open, and add no branch
outside. -/
def Closed (tokens : List (Token α)) : Prop :=
  ∀ inner ahead, branchesAhead inner (tokens ++ ahead) = branchesAhead inner ahead

end Token

open Token

theorem closed_tokensOfElements : ∀ {elements : List (Element α)},
    (∀ element ∈ elements, Closed element.tokens) → Closed (tokensOfElements elements)
  | [], _, _, _ => rfl
  | element :: rest, h, inner, ahead => by
    obtain ⟨helement, hrest⟩ := List.forall_mem_cons.mp h
    rw [tokensOfElements, List.append_assoc, helement, closed_tokensOfElements hrest]

/-- The clauses after the first add their branches to their own block, and nothing to the blocks around
it. -/
theorem branchesAhead_tokensOfClauses (directive : α) : ∀ {clauses : List (Clause α)},
    (∀ clause ∈ clauses, clause.1.opens = false) →
    (∀ clause ∈ clauses, ∀ element ∈ clause.2, Closed element.tokens) → ∀ inner ahead,
      branchesAhead inner (tokensOfClauses directive clauses ++ ahead) =
        (if inner = 0 then clauses.map (·.1) else []) ++ branchesAhead inner ahead
  | [], _, _, inner, _ => by cases inner <;> rfl
  | (branch, elements) :: rest, hbranches, hclosed, inner, ahead => by
    obtain ⟨hbranch, hbranches⟩ := List.forall_mem_cons.mp hbranches
    obtain ⟨hfirst, hclosed⟩ := List.forall_mem_cons.mp hclosed
    have helements := closed_tokensOfElements hfirst
    have ih := branchesAhead_tokensOfClauses directive hbranches hclosed inner ahead
    rw [tokensOfClauses, List.cons_append, List.append_assoc]
    cases branch with
    | ifTrue condition => exact nomatch hbranch
    | elseIf condition | otherwise =>
      cases inner with
      | zero => simp [Branch.token, branchesAhead, helements 0, ih]
      | succ inner => simp [Branch.token, branchesAhead, helements (inner + 1), ih]

theorem Branch.InOrder.cases {clauses : List (Clause α)} (h : InOrder (clauses.map (·.1))) :
    ∃ condition elements rest, clauses = (.ifTrue condition, elements) :: rest ∧
      ∀ clause ∈ rest, clause.1.opens = false := by
  match clauses, h with
  | (.ifTrue condition, elements) :: rest, h =>
    exact ⟨condition, elements, rest, rfl, fun clause hclause => h.2 _ (List.mem_map_of_mem hclause)⟩
  | (.elseIf _, _) :: _, h => exact nomatch h.1
  | (.otherwise, _) :: _, h => exact nomatch h.1

theorem Element.WellFormed.closed {element : Element α} (h : element.WellFormed) :
    Closed element.tokens := by
  induction h with
  | item value => exact fun _ _ => rfl
  | @block directive clauses branches _ ih =>
    intro inner ahead
    obtain ⟨condition, elements, rest, rfl, hrest⟩ := branches.cases
    obtain ⟨hfirst, hothers⟩ := List.forall_mem_cons.mp ih
    -- The first clause opens one more block inside, so the others stay below the surface.
    rw [tokens, tokensOfClauses, Branch.token, List.cons_append, List.cons_append, branchesAhead,
      List.append_assoc, List.append_assoc, closed_tokensOfElements hfirst,
      branchesAhead_tokensOfClauses directive hrest hothers]
    rfl

/-- Inside a clause of a block, the blocks around it are those around the block, and the block itself
has the branches of its later clauses ahead. -/
theorem enclosures_tokensOfClauses (directive : α) {clauses : List (Clause α)}
    (hbranches : ∀ clause ∈ clauses, clause.1.opens = false)
    (helements : ∀ clause ∈ clauses, ∀ element ∈ clause.2, element.WellFormed)
    (clause : OpenClause α) (outer : List (OpenClause α)) (ahead : List (Token α)) :
    enclosures (clause :: outer) (tokensOfClauses directive clauses ++ .endIf :: ahead) =
      enclosures outer ahead ++ [clause.enclosure (clauses.map (·.1))] := by
  have hahead := branchesAhead_tokensOfClauses directive hbranches fun clause hclause element helement =>
    (helements clause hclause element helement).closed
  have houter : enclosuresFrom (tokensOfClauses directive clauses ++ .endIf :: ahead) 1 outer =
      enclosuresFrom ahead 0 outer := by
    refine enclosuresFrom_congr fun k _ => ?_
    rw [Nat.add_comm 1 k, hahead, Nat.zero_add]
    rfl
  rw [enclosures, enclosuresFrom, houter, hahead, enclosures]
  simp [branchesAhead]

/-- The tokens of the element have its items, inside the clauses that the element has them in. -/
def Faithful (element : Element α) : Prop :=
  ∀ clauses ahead, Token.enclosed clauses (element.tokens ++ ahead) =
    element.enclosed (enclosures clauses ahead) ++ Token.enclosed clauses ahead

theorem enclosed_tokensOfElements : ∀ {elements : List (Element α)},
    (∀ element ∈ elements, element.WellFormed) → (∀ element ∈ elements, Faithful element) →
    ∀ clauses ahead, Token.enclosed clauses (tokensOfElements elements ++ ahead) =
      enclosedOfElements (enclosures clauses ahead) elements ++ Token.enclosed clauses ahead
  | [], _, _, _, _ => rfl
  | element :: rest, hformed, hfaithful, clauses, ahead => by
    obtain ⟨-, hformed⟩ := List.forall_mem_cons.mp hformed
    obtain ⟨helement, hfaithful⟩ := List.forall_mem_cons.mp hfaithful
    have hclosed := closed_tokensOfElements fun other hother => (hformed other hother).closed
    have hahead : enclosures clauses (tokensOfElements rest ++ ahead) = enclosures clauses ahead :=
      enclosuresFrom_congr fun _ _ => hclosed _ ahead
    rw [tokensOfElements, List.append_assoc, helement, hahead,
      enclosed_tokensOfElements hformed hfaithful, enclosedOfElements, List.append_assoc]

/-- The clauses after the first, read while an earlier clause of their block is open. -/
theorem enclosed_tokensOfClauses (directive : α) : ∀ {clauses : List (Clause α)},
    (∀ clause ∈ clauses, clause.1.opens = false) →
    (∀ clause ∈ clauses, ∀ element ∈ clause.2, element.WellFormed) →
    (∀ clause ∈ clauses, ∀ element ∈ clause.2, Faithful element) → ∀ earlier branch outer ahead,
      Token.enclosed (⟨directive, earlier, branch⟩ :: outer)
          (tokensOfClauses directive clauses ++ .endIf :: ahead) =
        enclosedOfClauses (enclosures outer ahead) directive
            (earlier ++ branch :: clauses.map (·.1)) clauses ++ Token.enclosed outer ahead
  | [], _, _, _, _, _, _, _ => rfl
  | (branch, elements) :: rest, hbranches, hformed, hfaithful, earlier, previous, outer, ahead => by
    obtain ⟨hbranch, hbranches⟩ := List.forall_mem_cons.mp hbranches
    obtain ⟨hformed₁, hformed⟩ := List.forall_mem_cons.mp hformed
    obtain ⟨hfaithful₁, hfaithful⟩ := List.forall_mem_cons.mp hfaithful
    have ih := enclosed_tokensOfClauses directive hbranches hformed hfaithful
      (earlier ++ [previous]) branch outer ahead
    have hopen : (branch.token directive).reopen (⟨directive, earlier, previous⟩ :: outer) =
        ⟨directive, earlier ++ [previous], branch⟩ :: outer := by
      cases branch with
      | ifTrue condition => exact nomatch hbranch
      | elseIf condition | otherwise => rfl
    rw [tokensOfClauses, List.cons_append, List.append_assoc, Token.enclosed, hopen,
      branch.item?_token, enclosed_tokensOfElements hformed₁ hfaithful₁,
      enclosures_tokensOfClauses directive hbranches hformed, ih, enclosedOfClauses]
    simp [OpenClause.enclosure]

theorem Element.WellFormed.faithful {element : Element α} (h : element.WellFormed) :
    Faithful element := by
  induction h with
  | item value => exact fun _ _ => rfl
  | @block directive clauses branches hformed ih =>
    intro opened ahead
    obtain ⟨condition, elements, rest, rfl, hrest⟩ := branches.cases
    obtain ⟨hformed₁, hformed⟩ := List.forall_mem_cons.mp hformed
    obtain ⟨ih₁, ih⟩ := List.forall_mem_cons.mp ih
    have hfirst := enclosed_tokensOfElements hformed₁ ih₁ (⟨directive, [], .ifTrue condition⟩ :: opened)
      (tokensOfClauses directive rest ++ .endIf :: ahead)
    have hothers := enclosed_tokensOfClauses directive hrest hformed ih [] (.ifTrue condition) opened ahead
    have haround := enclosures_tokensOfClauses directive hrest hformed ⟨directive, [], .ifTrue condition⟩
      opened ahead
    rw [tokens, tokensOfClauses, List.cons_append, List.cons_append, List.append_assoc, List.append_assoc]
    simp only [Branch.token, Token.enclosed, Token.item?, Token.reopen, Option.map_none, Option.toList_none,
      List.nil_append, List.singleton_append]
    rw [hfirst, hothers, haround, enclosed, enclosedOfClauses]
    simp [OpenClause.enclosure]

/-- Grouping puts each item inside the clauses that the tokens around it say. -/
theorem enclosed_group (tokens : List (Token α)) :
    enclosedOfElements [] (group tokens) = Token.enclosed [] tokens := by
  have hformed := group_wellFormed tokens
  have hfaithful : ∀ element ∈ group tokens, Faithful element := fun element helement =>
    (hformed element helement).faithful
  -- The elements say what their own tokens say, and these are the given ones, settled.
  have hwritten := enclosed_tokensOfElements hformed hfaithful [] []
  have hsettled : Token.enclosed [] (settled 0 tokens) = Token.enclosed [] tokens :=
    enclosed_settled tokens []
  rw [List.append_nil, tokens_group, hsettled] at hwritten
  rw [hwritten]
  exact (List.append_nil _).symm

example :
    Token.enclosed [] [.otherwise, .ifTrue 1 "A", .item 2, .ifTrue 3 "B", .item 4, .endIf, .elseIf "C", .item 5] =
      [([⟨1, [.ifTrue "A", .elseIf "C"], .ifTrue "A"⟩], 2),
        ([⟨1, [.ifTrue "A", .elseIf "C"], .ifTrue "A"⟩, ⟨3, [.ifTrue "B"], .ifTrue "B"⟩], 4),
        ([⟨1, [.ifTrue "A", .elseIf "C"], .elseIf "C"⟩], 5)] := by
  decide

end DocIndex
