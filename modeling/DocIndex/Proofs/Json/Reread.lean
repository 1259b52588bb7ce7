import DocIndex.Json.Pretty
import DocIndex.Json.Reader

/-! # Written values read back

The text of a value is read as that value again (`Json.parse?_pretty`), provided that its numbers are
integers. Reading goes by a bound on the number of steps, and at every point the length of what is left
to read is bound enough (`Json.Rereads`). -/

namespace DocIndex.Json

/-- A value whose numbers are all integers. -/
inductive Whole : Json → Prop
  | null : Whole null
  | bool (value : Bool) : Whole (bool value)
  | int (value : Int) : Whole (int value)
  | string (value : String) : Whole (string value)
  | array {items : List Json} (whole : ∀ item ∈ items, Whole item) : Whole (array items)
  | object {members : List (String × Json)} (whole : ∀ member ∈ members, Whole member.2) :
    Whole (object members)

/-! ### Blanks -/

theorem skipBlanks_cons {c : Char} (h : (c == ' ' || c == '\n' || c == '\t' || c == '\r') = false)
    (text : List Char) : skipBlanks (c :: text) = c :: text := by
  rw [skipBlanks, List.dropWhile_cons, h]
  simp

theorem skipBlanks_newline (level : Nat) (text : List Char) :
    skipBlanks (newline level ++ text) = skipBlanks text := by
  have hblank : ∀ c ∈ newline level, (c == ' ' || c == '\n' || c == '\t' || c == '\r') = true := by
    simp [newline]
  exact List.dropWhile_append_of_pos hblank

theorem skipBlanks_space (text : List Char) : skipBlanks (' ' :: text) = skipBlanks text := rfl

theorem skipBlanks_idem (text : List Char) : skipBlanks (skipBlanks text) = skipBlanks text := by
  induction text with
  | nil => rfl
  | cons c rest ih =>
    cases h : (c == ' ' || c == '\n' || c == '\t' || c == '\r') with
    | true => simpa [skipBlanks, List.dropWhile_cons, h] using ih
    | false => rw [skipBlanks_cons h, skipBlanks_cons h]

section

variable {text other : List Char} (h : skipBlanks text = skipBlanks other) (steps : Nat)
include h

theorem read_congr : read steps text = read steps other := by
  cases steps with
  | zero => simp [read]
  | succ steps => rw [read, read, h]

theorem readItems_congr (taken : List Json) :
    readItems steps taken text = readItems steps taken other := by
  cases steps with
  | zero => simp [readItems]
  | succ steps => rw [readItems, readItems, read_congr h]

theorem readMembers_congr (taken : List (String × Json)) :
    readMembers steps taken text = readMembers steps taken other := by
  cases steps with
  | zero => simp [readMembers]
  | succ steps => rw [readMembers, readMembers, h]

end

/-! ### Strings -/

theorem hexValue?_hexDigit : ∀ n < 16, hexValue? (hexDigit n) = some n := by
  decide

theorem readString_letter {letter c : Char} (hletter : letter ≠ 'u') (h : unescape? letter = some c)
    (taken rest : List Char) :
    readString taken ('\\' :: letter :: rest) = readString (c :: taken) rest := by
  rw [readString]
  · rw [h]
  · simp [hletter]

theorem readString_control {n : Nat} (h : n < 0x20) (taken rest : List Char) :
    readString taken ('\\' :: 'u' :: '0' :: '0' :: hexDigit (n / 16) :: hexDigit (n % 16) :: rest) =
      readString (Char.ofNat n :: taken) rest := by
  have hunit : hexUnit? '0' '0' (hexDigit (n / 16)) (hexDigit (n % 16)) = some n := by
    have hzero : hexValue? '0' = some 0 := rfl
    simp only [hexUnit?, hzero, hexValue?_hexDigit (n / 16) (by omega),
      hexValue?_hexDigit (n % 16) (by omega), Option.pure_def, Option.bind_eq_bind, Option.bind_some]
    congr 1
    omega
  rw [readString, hunit]
  simp only
  rw [if_neg (by omega), if_neg (by omega)]

theorem readString_plain {c : Char} (hquote : c ≠ '"') (hbackslash : c ≠ '\\')
    (hplain : ¬c.toNat < 0x20) (taken rest : List Char) :
    readString taken (c :: rest) = readString (c :: taken) rest := by
  rw [readString]
  · exact if_neg hplain
  · exact hquote
  · rintro _ _ _ _ _ rfl
    exact absurd rfl hbackslash
  · rintro _ _ rfl
    exact absurd rfl hbackslash

theorem readString_escape (c : Char) (taken rest : List Char) :
    readString taken (escape c ++ rest) = readString (c :: taken) rest := by
  by_cases hletter : c ∈ ['"', '\\', '\x08', '\t', '\n', '\x0c', '\r']
  · simp only [List.mem_cons, List.not_mem_nil, or_false] at hletter
    rcases hletter with rfl | rfl | rfl | rfl | rfl | rfl | rfl <;>
      exact readString_letter (by decide) rfl taken rest
  · simp only [List.mem_cons, List.not_mem_nil, or_false, not_or] at hletter
    obtain ⟨hquote, hbackslash, hletter⟩ := hletter
    by_cases hcontrol : c.toNat < 0x20
    · have hread := readString_control hcontrol taken rest
      rw [Char.ofNat_toNat] at hread
      simpa [escape, hquote, hbackslash, hletter, hcontrol] using hread
    · have hread := readString_plain hquote hbackslash hcontrol taken rest
      simpa [escape, hquote, hbackslash, hletter, hcontrol] using hread

/-- What stands between quotes is read as the text that was quoted. -/
theorem readString_quoted (text taken rest : List Char) :
    readString taken (text.flatMap escape ++ '"' :: rest) =
      some (String.ofList (taken.reverse ++ text), rest) := by
  induction text generalizing taken with
  | nil => simp [readString]
  | cons c text ih => simp [readString_escape, ih]

theorem quote_append (text : String) (rest : List Char) :
    quote text ++ rest = '"' :: (text.toList.flatMap escape ++ '"' :: rest) := by
  simp [quote]

theorem skipBlanks_quote (text : String) (rest : List Char) :
    skipBlanks (quote text ++ rest) = '"' :: (text.toList.flatMap escape ++ '"' :: rest) := by
  rw [quote_append]
  exact skipBlanks_cons rfl _

theorem read_quote (steps : Nat) (text : String) (rest : List Char) :
    read (steps + 1) (quote text ++ rest) = some (string text, rest) := by
  rw [read, skipBlanks_quote]
  simp [readString_quoted]

/-! ### Numbers -/

/-- Nothing at the start of the text would continue a number before it. -/
def EndsNumber (text : List Char) : Prop :=
  ∀ c ∈ text.head?, c.isDigit = false ∧ c ≠ '.' ∧ c ≠ 'e' ∧ c ≠ 'E'

theorem endsNumber_newline (level : Nat) (rest : List Char) : EndsNumber (newline level ++ rest) := by
  simp [EndsNumber, newline]

theorem eq_zero_of_head?_toDigits {n : Nat} (h : (Nat.toDigits 10 n).head? = some '0') : n = 0 := by
  induction n using Nat.strongRecOn with
  | ind n ih =>
    rw [Nat.toDigits_eq_if (by decide)] at h
    split at h
    · next hlt =>
      have hdigit : ∀ n < 10, Nat.digitChar n = '0' → n = 0 := by decide
      exact hdigit n hlt (by simpa using h)
    · next hle =>
      have hhead : (Nat.toDigits 10 (n / 10)).head? = some '0' := by
        rw [List.head?_append, List.head?_eq_some_head Nat.toDigits_ne_nil] at h
        rw [List.head?_eq_some_head Nat.toDigits_ne_nil]
        exact h
      have hquotient := ih (n / 10) (by omega) hhead
      omega

theorem isDigit_of_mem_toDigits {c : Char} {n : Nat} (h : c ∈ Nat.toDigits 10 n) : c.isDigit = true :=
  Nat.isDigit_of_mem_toDigits (by decide) (by decide) h

section

variable {rest : List Char} (h : EndsNumber rest)
include h

theorem takeDigits_toDigits (n : Nat) :
    takeDigits (Nat.toDigits 10 n ++ rest) = (Nat.toDigits 10 n, rest) := by
  have hdigits : ∀ c ∈ Nat.toDigits 10 n, c.isDigit = true := fun _ => isDigit_of_mem_toDigits
  have hstop : rest.takeWhile Char.isDigit = [] ∧ rest.dropWhile Char.isDigit = rest := by
    cases rest with
    | nil => exact ⟨rfl, rfl⟩
    | cons c rest => simp [(h c rfl).1]
  rw [takeDigits, List.takeWhile_append_of_pos hdigits, List.dropWhile_append_of_pos hdigits, hstop.1,
    hstop.2, List.append_nil]

theorem readFraction_of_endsNumber : readFraction rest = some ([], rest) := by
  unfold readFraction
  split
  · exact absurd rfl (h '.' rfl).2.1
  · rfl

theorem readExponent_of_endsNumber : readExponent rest = some ([], rest) := by
  cases rest with
  | nil => rfl
  | cons c rest =>
    obtain ⟨-, -, hsmall, hlarge⟩ := h c rfl
    simp [readExponent, hsmall, hlarge]

theorem readNumber_toDigits (negative : Bool) (n : Nat) (hzero : negative = true → n ≠ 0) :
    readNumber negative (Nat.toDigits 10 n ++ rest) =
      some (int (if negative then -n else n), rest) := by
  have hstart : ((Nat.toDigits 10 n).isEmpty ||
      ((Nat.toDigits 10 n).head? == some '0' && (Nat.toDigits 10 n).length != 1)) = false := by
    have hne : (Nat.toDigits 10 n).isEmpty = false := by
      simp [Nat.toDigits_ne_nil]
    rw [hne, Bool.false_or, Bool.and_eq_false_imp]
    intro hhead
    rw [eq_zero_of_head?_toDigits (eq_of_beq hhead)]
    rfl
  have hsign : (negative && n == 0) = false := by
    cases negative <;> simp_all
  simp [readNumber, takeDigits_toDigits h, hstart, readFraction_of_endsNumber h,
    readExponent_of_endsNumber h, Nat.ofDigitChars_ten_toDigits, hsign]

theorem read_digits (steps : Nat) (value : Int) :
    read (steps + 1) (digits value ++ rest) = some (int value, rest) := by
  cases value with
  | ofNat n =>
    have hnumber := readNumber_toDigits h false n (by simp)
    cases hdigits : Nat.toDigits 10 n with
    | nil => exact absurd hdigits Nat.toDigits_ne_nil
    | cons c cs =>
      have hc : c.isDigit = true := isDigit_of_mem_toDigits (n := n) (by simp [hdigits])
      have hne : ∀ d, d.isDigit = false → c ≠ d := fun d hd hcd => by simp [hcd, hd] at hc
      have hstart : skipBlanks (c :: (cs ++ rest)) = c :: (cs ++ rest) :=
        skipBlanks_cons (by simp [hne]) _
      have hread : read (steps + 1) (c :: (cs ++ rest)) = readNumber false (c :: (cs ++ rest)) := by
        rw [read, hstart]
        -- A digit is none of the characters that start a value of another shape.
        split <;> simp_all
      rw [hdigits] at hnumber
      simpa [digits, hdigits, hread] using hnumber
  | negSucc n =>
    have hstart : skipBlanks (digits (.negSucc n) ++ rest) = digits (.negSucc n) ++ rest :=
      skipBlanks_cons rfl _
    rw [read, hstart]
    exact readNumber_toDigits h true (n + 1) (by simp)

end

/-! ### Values -/

/-- A written value starts with a character that is neither blank nor a closing bracket. -/
theorem Whole.write_eq_cons {value : Json} (h : value.Whole) (level : Nat) :
    ∃ c text, write level value = c :: text ∧ c ∉ [' ', '\n', '\t', '\r', ']'] := by
  cases h with
  | null => exact ⟨_, _, rfl, by decide⟩
  | bool value => cases value <;> exact ⟨_, _, rfl, by decide⟩
  | int value =>
    cases value with
    | ofNat n =>
      cases hdigits : Nat.toDigits 10 n with
      | nil => exact absurd hdigits Nat.toDigits_ne_nil
      | cons c cs =>
        have hc : c.isDigit = true := isDigit_of_mem_toDigits (n := n) (by simp [hdigits])
        refine ⟨c, cs, by simpa [write, digits] using hdigits, fun hmem => ?_⟩
        simp only [List.mem_cons, List.not_mem_nil, or_false] at hmem
        rcases hmem with rfl | rfl | rfl | rfl | rfl <;> exact absurd hc (by decide)
    | negSucc n => exact ⟨_, _, rfl, by decide⟩
  | string value => exact ⟨_, _, rfl, by decide⟩
  | @array items => cases items <;> exact ⟨_, _, rfl, by decide⟩
  | @object members => rcases members with _ | ⟨⟨key, value⟩, members⟩ <;> exact ⟨_, _, rfl, by decide⟩

/-- The text of the value is read as the value, whatever comes after it. -/
def Rereads (value : Json) : Prop :=
  ∀ (level steps : Nat) (rest : List Char), (write level value).length ≤ steps → EndsNumber rest →
    read steps (write level value ++ rest) = some (value, rest)

theorem endsNumber_writeItems (level outer : Nat) (items : List Json) (rest : List Char) :
    EndsNumber (writeItems level items ++ (newline outer ++ rest)) := by
  cases items with
  | nil => exact endsNumber_newline outer rest
  | cons item items => simp [writeItems, EndsNumber]

theorem endsNumber_writeMembers (level outer : Nat) (members : List (String × Json))
    (rest : List Char) : EndsNumber (writeMembers level members ++ (newline outer ++ rest)) := by
  cases members with
  | nil => exact endsNumber_newline outer rest
  | cons member members => simp [writeMembers, EndsNumber]

section

variable {steps : Nat} {value : Json} {text rest more : List Char}

theorem readItems_comma (h : read steps text = some (value, rest)) (hrest : skipBlanks rest = ',' :: more)
    (level : Nat) (taken : List Json) :
    readItems (steps + 1) taken (newline level ++ text) = readItems steps (value :: taken) more := by
  rw [readItems, read_congr (skipBlanks_newline level text), h]
  simp [hrest]

theorem readItems_close (h : read steps text = some (value, rest)) (hrest : skipBlanks rest = ']' :: more)
    (level : Nat) (taken : List Json) :
    readItems (steps + 1) taken (newline level ++ text) = some ((value :: taken).reverse, more) := by
  rw [readItems, read_congr (skipBlanks_newline level text), h]
  simp [hrest]

theorem readMembers_comma (h : read steps text = some (value, rest))
    (hrest : skipBlanks rest = ',' :: more) (level : Nat) (key : String) (taken : List (String × Json)) :
    readMembers (steps + 1) taken (newline level ++ (quote key ++ (':' :: ' ' :: text))) =
      readMembers steps ((key, value) :: taken) more := by
  rw [readMembers, skipBlanks_newline, skipBlanks_quote]
  simp [readString_quoted, skipBlanks_cons, read_congr (skipBlanks_space _), h, hrest]

theorem readMembers_close (h : read steps text = some (value, rest))
    (hrest : skipBlanks rest = '\x7d' :: more) (level : Nat) (key : String)
    (taken : List (String × Json)) :
    readMembers (steps + 1) taken (newline level ++ (quote key ++ (':' :: ' ' :: text))) =
      some (((key, value) :: taken).reverse, more) := by
  rw [readMembers, skipBlanks_newline, skipBlanks_quote]
  simp [readString_quoted, skipBlanks_cons, read_congr (skipBlanks_space _), h, hrest]

end

theorem readItems_write {level outer : Nat} {rest : List Char} (items : List Json) :
    ∀ (item : Json) (steps : Nat) (taken : List Json), item.Rereads → (∀ item ∈ items, item.Rereads) →
      (write level item).length + (writeItems level items).length < steps →
      readItems steps taken (newline level ++
          (write level item ++ (writeItems level items ++ (newline outer ++ ']' :: rest)))) =
        some (taken.reverse ++ item :: items, rest) := by
  induction items with
  | nil =>
    intro item steps taken hitem _ hsteps
    cases steps with
    | zero => omega
    | succ steps =>
      have hread := hitem level steps _ (by omega) (endsNumber_writeItems level outer [] (']' :: rest))
      have hclose : skipBlanks (writeItems level [] ++ (newline outer ++ ']' :: rest)) = ']' :: rest := by
        simp [writeItems, skipBlanks_newline, skipBlanks_cons]
      rw [readItems_close hread hclose, List.reverse_cons]
  | cons next items ih =>
    intro item steps taken hitem hitems hsteps
    obtain ⟨hnext, hitems⟩ := List.forall_mem_cons.mp hitems
    have hlength : (write level next).length + (writeItems level items).length <
        (writeItems level (next :: items)).length := by
      rw [writeItems, List.length_append, List.length_append, List.length_cons]
      omega
    cases steps with
    | zero => omega
    | succ steps =>
      have hread := hitem level steps _ (by omega)
        (endsNumber_writeItems level outer (next :: items) (']' :: rest))
      have hmore := ih next steps (item :: taken) hnext hitems (by omega)
      rw [readItems_comma hread (skipBlanks_cons rfl _)]
      simpa using hmore

theorem readMembers_write {level outer : Nat} {rest : List Char} (members : List (String × Json)) :
    ∀ (key : String) (value : Json) (steps : Nat) (taken : List (String × Json)), value.Rereads →
      (∀ member ∈ members, member.2.Rereads) →
      (write level value).length + (writeMembers level members).length < steps →
      readMembers steps taken (newline level ++ (quote key ++ (':' :: ' ' ::
          (write level value ++ (writeMembers level members ++ (newline outer ++ '\x7d' :: rest)))))) =
        some (taken.reverse ++ (key, value) :: members, rest) := by
  induction members with
  | nil =>
    intro key value steps taken hvalue _ hsteps
    cases steps with
    | zero => omega
    | succ steps =>
      have hread := hvalue level steps _ (by omega) (endsNumber_writeMembers level outer [] ('\x7d' :: rest))
      have hclose : skipBlanks (writeMembers level [] ++ (newline outer ++ '\x7d' :: rest)) =
          '\x7d' :: rest := by
        simp [writeMembers, skipBlanks_newline, skipBlanks_cons]
      rw [readMembers_close hread hclose, List.reverse_cons]
  | cons next members ih =>
    intro key value steps taken hvalue hmembers hsteps
    obtain ⟨nextKey, nextValue⟩ := next
    obtain ⟨hnext, hmembers⟩ := List.forall_mem_cons.mp hmembers
    have hlength : (write level nextValue).length + (writeMembers level members).length <
        (writeMembers level ((nextKey, nextValue) :: members)).length := by
      simp [writeMembers]
      omega
    cases steps with
    | zero => omega
    | succ steps =>
      have hread := hvalue level steps _ (by omega)
        (endsNumber_writeMembers level outer ((nextKey, nextValue) :: members) ('\x7d' :: rest))
      have hmore := ih nextKey nextValue steps ((key, value) :: taken) hnext hmembers (by omega)
      rw [readMembers_comma hread (skipBlanks_cons rfl _)]
      simpa using hmore

theorem read_array {text : List Char} (h : (skipBlanks text).head? ≠ some ']') (steps : Nat) :
    read (steps + 1) ('[' :: text) =
      (readItems steps [] text).map fun (items, rest) => (array items, rest) := by
  rw [read, skipBlanks_cons rfl, ← readItems_congr (skipBlanks_idem text)]
  simp only
  split
  · next hclose => simp [hclose] at h
  · rfl

theorem read_object {text : List Char} (h : (skipBlanks text).head? ≠ some '\x7d') (steps : Nat) :
    read (steps + 1) ('\x7b' :: text) =
      (readMembers steps [] text).map fun (members, rest) => (object members, rest) := by
  rw [read, skipBlanks_cons rfl, ← readMembers_congr (skipBlanks_idem text)]
  simp only
  split
  · next hclose => simp [hclose] at h
  · rfl

/-- A written value is not empty, so that there is a step to read it with. -/
theorem Whole.rereads_of_succ {value : Json} (h : value.Whole)
    (hread : ∀ (level steps : Nat) (rest : List Char), (write level value).length ≤ steps + 1 →
      EndsNumber rest → read (steps + 1) (write level value ++ rest) = some (value, rest)) :
    value.Rereads := by
  intro level steps rest hsteps hrest
  cases steps with
  | zero =>
    obtain ⟨c, text, hwrite, -⟩ := h.write_eq_cons level
    simp [hwrite] at hsteps
  | succ steps => exact hread level steps rest hsteps hrest

theorem read_write_array {item : Json} {items : List Json} (hwhole : item.Whole) (hitem : item.Rereads)
    (hitems : ∀ item ∈ items, item.Rereads) {level steps : Nat}
    (hsteps : (write level (array (item :: items))).length ≤ steps + 1) (rest : List Char) :
    read (steps + 1) (write level (array (item :: items)) ++ rest) = some (array (item :: items), rest) := by
  have hwrite : write level (array (item :: items)) ++ rest =
      '[' :: (newline (level + 1) ++ (write (level + 1) item ++
        (writeItems (level + 1) items ++ (newline level ++ ']' :: rest)))) := by
    simp [write]
  have hlength : (write (level + 1) item).length + (writeItems (level + 1) items).length + 1 <
      (write level (array (item :: items))).length := by
    simp [write]
    omega
  have hopen (more : List Char) :
      (skipBlanks (newline (level + 1) ++ (write (level + 1) item ++ more))).head? ≠ some ']' := by
    obtain ⟨c, text, hstart, hc⟩ := hwhole.write_eq_cons (level + 1)
    rw [skipBlanks_newline, hstart, List.cons_append, skipBlanks_cons (by simp_all)]
    simp_all
  rw [hwrite, read_array (hopen _), readItems_write items item steps [] hitem hitems (by omega)]
  rfl

theorem read_write_object {key : String} {value : Json} {members : List (String × Json)}
    (hvalue : value.Rereads) (hmembers : ∀ member ∈ members, member.2.Rereads) {level steps : Nat}
    (hsteps : (write level (object ((key, value) :: members))).length ≤ steps + 1) (rest : List Char) :
    read (steps + 1) (write level (object ((key, value) :: members)) ++ rest) =
      some (object ((key, value) :: members), rest) := by
  have hwrite : write level (object ((key, value) :: members)) ++ rest =
      '\x7b' :: (newline (level + 1) ++ (quote key ++ (':' :: ' ' :: (write (level + 1) value ++
        (writeMembers (level + 1) members ++ (newline level ++ '\x7d' :: rest)))))) := by
    simp [write]
  have hlength : (write (level + 1) value).length + (writeMembers (level + 1) members).length + 1 <
      (write level (object ((key, value) :: members))).length := by
    simp [write]
    omega
  have hopen (more : List Char) :
      (skipBlanks (newline (level + 1) ++ (quote key ++ more))).head? ≠ some '\x7d' := by
    rw [skipBlanks_newline, skipBlanks_quote]
    simp
  rw [hwrite, read_object (hopen _), readMembers_write members key value steps [] hvalue hmembers (by omega)]
  rfl

theorem Whole.rereads {value : Json} (h : value.Whole) : value.Rereads := by
  induction h with
  | null => exact Whole.null.rereads_of_succ fun _ _ _ _ _ => by simp [write, read, skipBlanks]
  | bool value =>
    refine (Whole.bool value).rereads_of_succ fun _ _ _ _ _ => ?_
    cases value <;> simp [write, read, skipBlanks]
  | int value =>
    exact (Whole.int value).rereads_of_succ fun _ steps _ _ hrest => read_digits hrest steps value
  | string value =>
    exact (Whole.string value).rereads_of_succ fun _ steps rest _ _ => read_quote steps value rest
  | @array items hwhole ih =>
    refine (Whole.array hwhole).rereads_of_succ fun level steps rest hsteps _ => ?_
    cases items with
    | nil => simp [write, read, skipBlanks]
    | cons item items =>
      obtain ⟨hitem, hitems⟩ := List.forall_mem_cons.mp ih
      exact read_write_array (hwhole item List.mem_cons_self) hitem hitems hsteps rest
  | @object members hwhole ih =>
    refine (Whole.object hwhole).rereads_of_succ fun level steps rest hsteps _ => ?_
    cases members with
    | nil => simp [write, read, skipBlanks]
    | cons member members =>
      obtain ⟨hvalue, hmembers⟩ := List.forall_mem_cons.mp ih
      exact read_write_object hvalue hmembers hsteps rest

/-- A text that holds a value and nothing else is read as the value. -/
theorem parse?_pretty {value : Json} (h : value.Whole) :
    parse? value.pretty.toList = some value := by
  have hread := h.rereads 0 ((write 0 value).length + 1) [] (by omega) (by simp [EndsNumber])
  rw [List.append_nil] at hread
  simp [parse?, pretty, hread, skipBlanks]

end DocIndex.Json
