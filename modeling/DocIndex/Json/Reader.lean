import DocIndex.Json.Value

/-! # Reading JSON

A reader takes what it reads off the front of the text and gives the rest. Values nest, so reading
goes by a bound on the number of steps; the length of the text is always enough, since every step
takes at least one character. -/

namespace DocIndex.Json

/-- The text without the blanks that JSON allows between tokens. -/
def skipBlanks (text : List Char) : List Char :=
  text.dropWhile fun c => c == ' ' || c == '\n' || c == '\t' || c == '\r'

/-- The value of a hexadecimal digit. -/
def hexValue? (c : Char) : Option Nat :=
  if '0' ≤ c ∧ c ≤ '9' then some (c.toNat - '0'.toNat)
  else if 'a' ≤ c ∧ c ≤ 'f' then some (c.toNat - 'a'.toNat + 10)
  else if 'A' ≤ c ∧ c ≤ 'F' then some (c.toNat - 'A'.toNat + 10)
  else none

/-- The value of four hexadecimal digits. -/
def hexUnit? (a b c d : Char) : Option Nat := do
  return 4096 * (← hexValue? a) + 256 * (← hexValue? b) + 16 * (← hexValue? c) + (← hexValue? d)

/-- The character for a letter after a backslash. -/
def unescape? : Char → Option Char
  | '"' => some '"'
  | '\\' => some '\\'
  | '/' => some '/'
  | 'b' => some '\x08'
  | 'f' => some '\x0c'
  | 'n' => some '\n'
  | 'r' => some '\r'
  | 't' => some '\t'
  | _ => none

/-- The character that two UTF-16 surrogates stand for. -/
def pair? (high low : Nat) : Option Char :=
  if 0xDC00 ≤ low ∧ low ≤ 0xDFFF then
    some (Char.ofNat (0x10000 + (high - 0xD800) * 0x400 + (low - 0xDC00)))
  else none

/-- Reads the rest of a string; `taken` holds the characters so far, the last first. -/
def readString (taken : List Char) : List Char → Option (String × List Char)
  | [] => none
  | '"' :: rest => some (String.ofList taken.reverse, rest)
  | '\\' :: 'u' :: a :: b :: c :: d :: rest =>
    match hexUnit? a b c d with
    | none => none
    | some unit =>
      if 0xD800 ≤ unit ∧ unit ≤ 0xDBFF then
        match rest with
        | '\\' :: 'u' :: e :: f :: g :: h :: more =>
          match (hexUnit? e f g h).bind (pair? unit) with
          | some char => readString (char :: taken) more
          | none => none
        | _ => none
      else if 0xDC00 ≤ unit ∧ unit ≤ 0xDFFF then none
      else readString (Char.ofNat unit :: taken) rest
  | '\\' :: c :: rest =>
    match unescape? c with
    | some char => readString (char :: taken) rest
    | none => none
  | c :: rest => if c.toNat < 0x20 then none else readString (c :: taken) rest

/-- Splits decimal digits off the front. -/
def takeDigits (text : List Char) : List Char × List Char :=
  (text.takeWhile Char.isDigit, text.dropWhile Char.isDigit)

/-- Reads a fraction, if there is one: its text and the rest. -/
def readFraction : List Char → Option (List Char × List Char)
  | '.' :: rest =>
    match takeDigits rest with
    | ([], _) => none
    | (places, rest) => some ('.' :: places, rest)
  | text => some ([], text)

/-- Reads an exponent, if there is one: its text and the rest. -/
def readExponent : List Char → Option (List Char × List Char)
  | [] => some ([], [])
  | mark :: rest =>
    if mark = 'e' ∨ mark = 'E' then
      let (sign, rest) :=
        match rest with
        | '+' :: rest => (['+'], rest)
        | '-' :: rest => (['-'], rest)
        | rest => ([], rest)
      match takeDigits rest with
      | ([], _) => none
      | (places, rest) => some (mark :: sign ++ places, rest)
    else some ([], mark :: rest)

/-- Reads a number after its sign. A whole number does not start with a zero, unless it is zero, and
there is no negative zero among the integers. -/
def readNumber (negative : Bool) (text : List Char) : Option (Json × List Char) := do
  let (whole, rest) := takeDigits text
  if whole.isEmpty || (whole.head? == some '0' && whole.length != 1) then none
  else
    let (places, rest) ← readFraction rest
    let (power, rest) ← readExponent rest
    let n := Nat.ofDigitChars 10 whole 0
    if places.isEmpty && power.isEmpty && !(negative && n == 0) then
      return (int (if negative then -n else n), rest)
    else
      return (decimal (String.ofList ((if negative then ['-'] else []) ++ whole ++ places ++ power)),
        rest)

mutual

/-- Reads a value. -/
def read : Nat → List Char → Option (Json × List Char)
  | 0, _ => none
  | steps + 1, text =>
    match skipBlanks text with
    | 'n' :: 'u' :: 'l' :: 'l' :: rest => some (null, rest)
    | 't' :: 'r' :: 'u' :: 'e' :: rest => some (bool true, rest)
    | 'f' :: 'a' :: 'l' :: 's' :: 'e' :: rest => some (bool false, rest)
    | '"' :: rest => (readString [] rest).map fun (value, rest) => (string value, rest)
    | '[' :: rest =>
      match skipBlanks rest with
      | ']' :: rest => some (array [], rest)
      | rest => (readItems steps [] rest).map fun (items, rest) => (array items, rest)
    | '\x7b' :: rest =>
      match skipBlanks rest with
      | '\x7d' :: rest => some (object [], rest)
      | rest => (readMembers steps [] rest).map fun (members, rest) => (object members, rest)
    | '-' :: rest => readNumber true rest
    | rest => readNumber false rest

/-- Reads items up to the closing bracket; `taken` holds those so far, the last first. -/
def readItems : Nat → List Json → List Char → Option (List Json × List Char)
  | 0, _, _ => none
  | steps + 1, taken, text =>
    match read steps text with
    | none => none
    | some (item, rest) =>
      match skipBlanks rest with
      | ',' :: rest => readItems steps (item :: taken) rest
      | ']' :: rest => some ((item :: taken).reverse, rest)
      | _ => none

/-- Reads members up to the closing brace; `taken` holds those so far, the last first. -/
def readMembers :
    Nat → List (String × Json) → List Char → Option (List (String × Json) × List Char)
  | 0, _, _ => none
  | steps + 1, taken, text =>
    match skipBlanks text with
    | '"' :: rest =>
      match readString [] rest with
      | none => none
      | some (key, rest) =>
        match skipBlanks rest with
        | ':' :: rest =>
          match read steps rest with
          | none => none
          | some (value, rest) =>
            match skipBlanks rest with
            | ',' :: rest => readMembers steps ((key, value) :: taken) rest
            | '\x7d' :: rest => some (((key, value) :: taken).reverse, rest)
            | _ => none
        | _ => none
    | _ => none

end

/-- Reads a text that holds one value and nothing else but blanks. -/
def parse? (text : List Char) : Option Json :=
  match read (text.length + 1) text with
  | some (value, rest) => if (skipBlanks rest).isEmpty then some value else none
  | none => none

end DocIndex.Json
