/-! # Positions in bytes

A place in a text is the number of UTF-8 bytes before it. A byte offset that falls inside a character
stands for the place after it. -/

namespace DocIndex.Text

/-- The number of UTF-8 bytes of a text. -/
def byteLength : List Char → Nat
  | [] => 0
  | c :: rest => c.utf8Size + byteLength rest

/-- The text from byte `offset` on. -/
def dropBytes : Nat → List Char → List Char
  | 0, text => text
  | _ + 1, [] => []
  | offset + 1, c :: rest => dropBytes (offset + 1 - c.utf8Size) rest

/-- The text before byte `offset`. -/
def takeBytes : Nat → List Char → List Char
  | 0, _ => []
  | _ + 1, [] => []
  | offset + 1, c :: rest => c :: takeBytes (offset + 1 - c.utf8Size) rest

/-- The text from byte `start` to byte `stop`, and nothing when `stop` lies past the end. -/
def slice (text : List Char) (start stop : Nat) : List Char :=
  if stop ≤ byteLength text then takeBytes (stop - start) (dropBytes start text) else []

/-- The number of line feeds before byte `offset`. -/
def row (text : List Char) (offset : Nat) : Nat :=
  (takeBytes offset text).count '\n'

/-- What stands between the last line feed before byte `offset` and that byte. -/
def lineBefore (text : List Char) (offset : Nat) : List Char :=
  ((takeBytes offset text).reverse.takeWhile (· != '\n')).reverse

/-- The UTF-8 bytes of a text. -/
def bytes (text : List Char) : List UInt8 :=
  text.flatMap String.utf8EncodeChar

/-- The byte of a line feed. -/
def lineFeed : UInt8 := 10

/-- The number of bytes between the last line feed before byte `offset` and that byte. -/
def column (text : List Char) (offset : Nat) : Nat :=
  (((bytes text).take offset).reverse.takeWhile (· != lineFeed)).length

end DocIndex.Text
