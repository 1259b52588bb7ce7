/-! # Lists in sections

Some children of a declaration open a section of their own: the names of a property declaration, the parameters of a
callable. A pass over the children that adds an item for each of these, and lets every other child change the last
item or what is gathered for the next one, builds every item from its own section alone (`Gathers.foldl_eq`). -/

namespace DocIndex.Extract

variable {α : Type}

/-- An element that opens a section, what stands between it and the one that opened the section before, and what
follows up to the next one that opens a section. -/
structure Section (α : Type) where
  before : List α
  head : α
  after : List α

/-- The sections of a list, when some elements stand before it that belong to the first. -/
def sectionsFrom (opens : α → Bool) (before : List α) : List α → List (Section α)
  | [] => []
  | item :: rest =>
    if opens item then ⟨before, item, rest.takeWhile (!opens ·)⟩ :: sectionsFrom opens [] rest
    else sectionsFrom opens (before ++ [item]) rest

/-- The sections of a list. -/
def sections (opens : α → Bool) (items : List α) : List (Section α) :=
  sectionsFrom opens [] items

/-- The elements after the last one that opens a section. -/
def sinceLast (opens : α → Bool) (items : List α) : List α :=
  (items.reverse.takeWhile (!opens ·)).reverse

/-- The elements before the first one that opens a section. -/
def upToNext (opens : α → Bool) (items : List α) : List α :=
  items.takeWhile (!opens ·)

variable {opens : α → Bool}

theorem takeWhile_append_cons {p : α → Bool} {item : α} (h : p item = false) (items more : List α) :
    (items ++ item :: more).takeWhile p = items.takeWhile p := by
  induction items with
  | nil => simp [h]
  | cons first rest ih => simp [List.takeWhile_cons, ih]

theorem sinceLast_of_forall {items : List α} (h : ∀ item ∈ items, opens item = false) :
    sinceLast opens items = items := by
  have hall : ∀ item ∈ items.reverse, (!opens item) = true := fun item hitem => by
    simp [h item (List.mem_reverse.mp hitem)]
  rw [sinceLast, ← List.append_nil items.reverse, List.takeWhile_append_of_pos hall]
  simp

theorem sinceLast_append_cons {item : α} (h : opens item = true) (items more : List α) :
    sinceLast opens (items ++ item :: more) = sinceLast opens more := by
  have hreverse : (items ++ item :: more).reverse = more.reverse ++ item :: items.reverse := by simp
  rw [sinceLast, hreverse, takeWhile_append_cons (by simp [h]), sinceLast]

theorem map_head_sectionsFrom (before items : List α) :
    (sectionsFrom opens before items).map (·.head) = items.filter opens := by
  induction items generalizing before with
  | nil => rfl
  | cons item rest ih =>
    rw [sectionsFrom, List.filter_cons]
    split
    next => rw [List.map_cons, ih]
    next => exact ih _

/-- An element that opens a section parts the sections of a list. -/
theorem sectionsFrom_append_cons {head : α} (hhead : opens head = true) {before : List α}
    (hbefore : ∀ item ∈ before, opens item = false) (front back : List α) :
    sectionsFrom opens before (front ++ head :: back) =
      sectionsFrom opens before front ++
        ⟨sinceLast opens (before ++ front), head, upToNext opens back⟩ :: sections opens back := by
  induction front generalizing before with
  | nil => simp [sectionsFrom, hhead, upToNext, sections, sinceLast_of_forall hbefore]
  | cons item rest ih =>
    rw [List.cons_append, sectionsFrom, sectionsFrom]
    split
    next hitem =>
      rw [takeWhile_append_cons (by simp [hhead]), ih (by simp), sinceLast_append_cons hitem]
      rfl
    next hitem =>
      have hmore : ∀ other ∈ before ++ [item], opens other = false := by
        simpa [or_imp, forall_and] using And.intro hbefore hitem
      rw [ih hmore, List.append_assoc, List.singleton_append]

theorem sections_append_cons {head : α} (hhead : opens head = true) (front back : List α) :
    sections opens (front ++ head :: back) =
      sections opens front ++ ⟨sinceLast opens front, head, upToNext opens back⟩ :: sections opens back :=
  sectionsFrom_append_cons hhead (List.forall_mem_nil _) front back

theorem map_head_sections (items : List α) : (sections opens items).map (·.head) = items.filter opens :=
  map_head_sectionsFrom [] items

theorem length_sections (items : List α) : (sections opens items).length = items.countP opens := by
  rw [List.countP_eq_length_filter, ← map_head_sections, List.length_map]

/-! ### One pass over a list -/

/-- One step of a pass: an element that opens a section starts a new item from what has been gathered for it, and any
other changes the last item and what is gathered. The items come with the last one first. -/
structure Gathers {σ β γ : Type} (opens : α → Bool) (step : σ → α → σ) (done : σ → List γ) (pending : σ → β)
    (empty : β) (start : β → α → γ) (grow : γ → α → γ) (gather : β → α → β) : Prop where
  done_open : ∀ state item, opens item = true → done (step state item) = start (pending state) item :: done state
  pending_open : ∀ state item, opens item = true → pending (step state item) = empty
  done_other : ∀ state item, opens item = false → done (step state item) = (done state).modifyHead (grow · item)
  pending_other : ∀ state item, opens item = false → pending (step state item) = gather (pending state) item

/-- The item of one section. -/
def Section.item {β γ : Type} (empty : β) (start : β → α → γ) (grow : γ → α → γ) (gather : β → α → β)
    (s : Section α) : γ :=
  s.after.foldl grow (start (s.before.foldl gather empty) s.head)

variable {σ β γ : Type} {step : σ → α → σ} {done : σ → List γ} {pending : σ → β} {empty : β} {start : β → α → γ}
  {grow : γ → α → γ} {gather : β → α → β}

theorem Gathers.foldl_from (h : Gathers opens step done pending empty start grow gather) (items before : List α)
    {state : σ} (hstate : pending state = before.foldl gather empty) :
    done (items.foldl step state) =
      ((sectionsFrom opens before items).map (Section.item empty start grow gather)).reverse ++
        (done state).modifyHead fun item => (upToNext opens items).foldl grow item := by
  induction items generalizing before state with
  | nil => cases hdone : done state <;> simp [sectionsFrom, upToNext, hdone]
  | cons item rest ih =>
    rw [List.foldl_cons, sectionsFrom, upToNext]
    cases hitem : opens item with
    | true =>
      rw [ih [] (h.pending_open state item hitem), h.done_open state item hitem, hstate]
      cases hdone : done state <;> simp [Section.item, upToNext, hitem]
    | false =>
      have hpending : pending (step state item) = (before ++ [item]).foldl gather empty := by
        rw [h.pending_other state item hitem, hstate, List.foldl_append]
        rfl
      rw [ih _ hpending, h.done_other state item hitem]
      cases hdone : done state <;> simp [upToNext, hitem]

/-- A pass that starts with nothing builds one item of every section, in order. -/
theorem Gathers.foldl_eq (h : Gathers opens step done pending empty start grow gather) (items : List α) (state : σ)
    (hdone : done state = []) (hpending : pending state = empty) :
    (done (items.foldl step state)).reverse = (sections opens items).map (Section.item empty start grow gather) := by
  rw [h.foldl_from items [] hpending, hdone]
  simp [sections]

end DocIndex.Extract
