import DocIndex.Proofs.Json.Reread

/-! # The lines of a written value

Each item of an array and each member of an object starts a line of its own, two spaces further in than the
brackets around them (`Json.toList_pretty`). No string breaks a line, because control characters are escaped
(`Json.plain_line`). -/

namespace DocIndex.Json

/-- A line of the text of a value: the level it stands at, and what follows the indent. -/
structure Row where
  level : Nat
  text : List Char
  deriving DecidableEq, Repr

/-- A row after its indent of two spaces for each level. -/
def Row.line (row : Row) : List Char :=
  List.replicate (2 * row.level) ' ' ++ row.text

/-- What follows an item: a comma, except after the last. -/
def separator {α : Type} (rest : List α) : List Char :=
  if rest.isEmpty then [] else [',']

mutual

/-- The rows of a value, with what stands before it on the first of them and after it on the last. -/
def rows (level : Nat) (before after : List Char) : Json → List Row
  | array (item :: items) =>
    ⟨level, before ++ ['[']⟩ :: itemRows (level + 1) (item :: items) ++ [⟨level, ']' :: after⟩]
  | object (member :: members) =>
    ⟨level, before ++ ['\x7b']⟩ :: memberRows (level + 1) (member :: members) ++ [⟨level, '\x7d' :: after⟩]
  | value => [⟨level, before ++ write level value ++ after⟩]

def itemRows (level : Nat) : List Json → List Row
  | [] => []
  | item :: items => rows level [] (separator items) item ++ itemRows level items

def memberRows (level : Nat) : List (String × Json) → List Row
  | [] => []
  | (key, value) :: members =>
    rows level (quote key ++ [':', ' ']) (separator members) value ++ memberRows level members

end

/-! ### Rows put together -/

/-- Rows one below the other, each after a line feed. -/
def stack (rows : List Row) : List Char :=
  rows.flatMap fun row => '\n' :: row.line

@[simp] theorem stack_nil : stack [] = [] := rfl

@[simp] theorem stack_cons (level : Nat) (text : List Char) (rows : List Row) :
    stack (⟨level, text⟩ :: rows) = newline level ++ text ++ stack rows := by
  simp [stack, Row.line, newline]

@[simp] theorem stack_append (rows more : List Row) : stack (rows ++ more) = stack rows ++ stack more := by
  simp [stack]

/-- The rows of a value make up its text. -/
def Stacks (value : Json) : Prop :=
  ∀ (level : Nat) (before after : List Char),
    stack (rows level before after value) = newline level ++ before ++ write level value ++ after

theorem stack_itemRows {items : List Json} (h : ∀ item ∈ items, item.Stacks) (level : Nat) :
    separator items ++ stack (itemRows level items) = writeItems level items := by
  induction items with
  | nil => rfl
  | cons item items ih =>
    obtain ⟨hitem, hitems⟩ := List.forall_mem_cons.mp h
    rw [itemRows, stack_append, hitem, writeItems, ← ih hitems]
    simp [separator]

theorem stack_memberRows {members : List (String × Json)} (h : ∀ member ∈ members, member.2.Stacks) (level : Nat) :
    separator members ++ stack (memberRows level members) = writeMembers level members := by
  induction members with
  | nil => rfl
  | cons member members ih =>
    obtain ⟨key, value⟩ := member
    obtain ⟨hvalue, hmembers⟩ := List.forall_mem_cons.mp h
    rw [memberRows, stack_append, hvalue, writeMembers, ← ih hmembers]
    simp [separator]

theorem Whole.stacks {value : Json} (h : value.Whole) : value.Stacks := by
  induction h with
  | null | bool | int | string =>
    intro level before after
    simp [rows]
  | @array items _ ih =>
    intro level before after
    cases items with
    | nil => simp [rows]
    | cons item items =>
      have hitems : stack (itemRows (level + 1) (item :: items)) =
          newline (level + 1) ++ write (level + 1) item ++ writeItems (level + 1) items := by
        simpa [separator, writeItems] using stack_itemRows ih (level + 1)
      simp [rows, write, hitems]
  | @object members _ ih =>
    intro level before after
    cases members with
    | nil => simp [rows]
    | cons member members =>
      have hmembers : stack (memberRows (level + 1) (member :: members)) =
          newline (level + 1) ++ quote member.1 ++ [':', ' '] ++ write (level + 1) member.2 ++
            writeMembers (level + 1) members := by
        simpa [separator, writeMembers] using stack_memberRows ih (level + 1)
      simp [rows, write, hmembers]

theorem stack_eq_intercalate : ∀ {rows : List Row}, rows ≠ [] →
    stack rows = '\n' :: ['\n'].intercalate (rows.map Row.line)
  | [], hsome => absurd rfl hsome
  | [row], _ => by simp [stack]
  | row :: next :: rest, _ => by
    have ih := stack_eq_intercalate (List.cons_ne_nil next rest)
    rw [stack, List.flatMap_cons, ← stack, ih]
    simp [List.intercalate_cons_cons]

/-! ### Rows are single lines -/

/-- The text holds no control characters. -/
def Plain (text : List Char) : Prop :=
  ∀ c ∈ text, 0x20 ≤ c.toNat

instance : DecidablePred Plain := fun text =>
  decidable_of_iff (text.all fun c => 0x20 ≤ c.toNat) (by simp [Plain])

@[simp] theorem plain_nil : Plain [] := by
  simp [Plain]

@[simp] theorem plain_cons {c : Char} {text : List Char} : Plain (c :: text) ↔ 0x20 ≤ c.toNat ∧ Plain text :=
  List.forall_mem_cons

@[simp] theorem plain_append {text more : List Char} : Plain (text ++ more) ↔ Plain text ∧ Plain more :=
  List.forall_mem_append

theorem le_toNat_hexDigit : ∀ n < 16, 0x20 ≤ (hexDigit n).toNat := by
  decide

theorem plain_escape (c : Char) : Plain (escape c) := by
  by_cases hletter : c ∈ ['"', '\\', '\x08', '\t', '\n', '\x0c', '\r']
  · simp only [List.mem_cons, List.not_mem_nil, or_false] at hletter
    rcases hletter with rfl | rfl | rfl | rfl | rfl | rfl | rfl <;> decide
  · simp only [List.mem_cons, List.not_mem_nil, or_false, not_or] at hletter
    by_cases hcontrol : c.toNat < 0x20
    · simp [escape, hletter, hcontrol, le_toNat_hexDigit (c.toNat / 16) (by omega),
        le_toNat_hexDigit (c.toNat % 16) (by omega)]
    · simp [escape, hletter, hcontrol, Nat.le_of_not_lt hcontrol]

theorem plain_quote (text : String) : Plain (quote text) := by
  have hescaped : Plain (text.toList.flatMap escape) := fun c hc => by
    obtain ⟨d, -, hd⟩ := List.mem_flatMap.mp hc
    exact plain_escape d c hd
  simp [quote, hescaped]

theorem plain_digits (value : Int) : Plain (digits value) := by
  have hdigits : ∀ n, Plain (Nat.toDigits 10 n) := fun n c hc => by
    have hdigit := isDigit_of_mem_toDigits hc
    simp [Char.isDigit, UInt32.le_iff_toNat_le] at hdigit
    omega
  cases value <;> simp [digits, hdigits]

@[simp] theorem plain_separator {α : Type} (rest : List α) : Plain (separator rest) := by
  cases rest <;> simp [separator]

/-- Between plain texts, all rows of a value are plain. -/
def PlainRows (value : Json) : Prop :=
  ∀ (level : Nat) (before after : List Char), Plain before → Plain after →
    ∀ row ∈ rows level before after value, Plain row.text

theorem plain_itemRows {items : List Json} (h : ∀ item ∈ items, item.PlainRows) (level : Nat) :
    ∀ row ∈ itemRows level items, Plain row.text := by
  induction items with
  | nil => simp [itemRows]
  | cons item items ih =>
    obtain ⟨hitem, hitems⟩ := List.forall_mem_cons.mp h
    rw [itemRows]
    exact List.forall_mem_append.mpr ⟨hitem level _ _ plain_nil (plain_separator items), ih hitems⟩

theorem plain_memberRows {members : List (String × Json)} (h : ∀ member ∈ members, member.2.PlainRows) (level : Nat) :
    ∀ row ∈ memberRows level members, Plain row.text := by
  induction members with
  | nil => simp [memberRows]
  | cons member members ih =>
    obtain ⟨key, value⟩ := member
    obtain ⟨hvalue, hmembers⟩ := List.forall_mem_cons.mp h
    have hkey : Plain (quote key ++ [':', ' ']) := plain_append.mpr ⟨plain_quote key, by decide⟩
    rw [memberRows]
    exact List.forall_mem_append.mpr ⟨hvalue level _ _ hkey (plain_separator members), ih hmembers⟩

theorem plain_single {value : Json} {level : Nat} {before after : List Char}
    (hbefore : Plain before) (hafter : Plain after) (hvalue : Plain (write level value)) :
    ∀ row ∈ [Row.mk level (before ++ write level value ++ after)], Plain row.text := by
  rw [List.forall_mem_singleton]
  exact plain_append.mpr ⟨plain_append.mpr ⟨hbefore, hvalue⟩, hafter⟩

theorem plain_enclosed {level : Nat} {before after : List Char} {first last : Char} {inner : List Row}
    (hbefore : Plain before) (hafter : Plain after) (hfirst : 0x20 ≤ first.toNat) (hlast : 0x20 ≤ last.toNat)
    (hinner : ∀ row ∈ inner, Plain row.text) :
    ∀ row ∈ ⟨level, before ++ [first]⟩ :: inner ++ [⟨level, last :: after⟩], Plain row.text := by
  intro row hrow
  simp only [List.cons_append, List.mem_cons, List.mem_append, List.not_mem_nil, or_false] at hrow
  rcases hrow with rfl | hrow | rfl
  · simp [hbefore, hfirst]
  · exact hinner row hrow
  · simp [hafter, hlast]

theorem Whole.plainRows {value : Json} (h : value.Whole) : value.PlainRows := by
  induction h with
  | null => exact fun _ _ _ hbefore hafter => plain_single hbefore hafter (by simp [write])
  | bool value =>
    exact fun _ _ _ hbefore hafter => plain_single hbefore hafter (by cases value <;> simp [write])
  | int value => exact fun _ _ _ hbefore hafter => plain_single hbefore hafter (plain_digits value)
  | string value =>
    exact fun _ _ _ hbefore hafter => plain_single hbefore hafter (plain_quote value)
  | @array items _ ih =>
    intro level before after hbefore hafter
    cases items with
    | nil => exact plain_single hbefore hafter (by simp [write])
    | cons item items =>
      exact plain_enclosed hbefore hafter (by decide) (by decide) (plain_itemRows ih (level + 1))
  | @object members _ ih =>
    intro level before after hbefore hafter
    cases members with
    | nil => exact plain_single hbefore hafter (by simp [write])
    | cons member members =>
      exact plain_enclosed hbefore hafter (by decide) (by decide) (plain_memberRows ih (level + 1))

theorem rows_ne_nil (level : Nat) (before after : List Char) (value : Json) : rows level before after value ≠ [] := by
  unfold rows
  split <;> simp

/-- The text of a value is its rows, one below the other. -/
theorem toList_pretty {value : Json} (h : value.Whole) :
    value.pretty.toList = ['\n'].intercalate ((rows 0 [] [] value).map Row.line) := by
  have hstack := h.stacks 0 [] []
  rw [stack_eq_intercalate (rows_ne_nil 0 [] [] value)] at hstack
  rw [pretty, String.toList_ofList]
  simpa [newline] using hstack.symm

/-- No row is broken by a line feed or another control character. -/
theorem plain_line {value : Json} (h : value.Whole) {row : Row} (hrow : row ∈ rows 0 [] [] value) : Plain row.line := by
  have htext := h.plainRows 0 [] [] plain_nil plain_nil row hrow
  exact plain_append.mpr ⟨fun c hc => (List.mem_replicate.mp hc).2 ▸ by decide, htext⟩

end DocIndex.Json
