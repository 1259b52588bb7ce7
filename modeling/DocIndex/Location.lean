import DocIndex.Text.Bytes

/-! # Locations

A location names a file, a line and a column. Offsets are resolved through a table of the offsets at
which lines start, searched by halving. -/

namespace DocIndex

/-- A place in a file. Lines and columns count from one, columns and offsets in bytes. -/
structure Location where
  file : String
  line : Nat
  column : Nat
  offset : Nat
  deriving DecidableEq, Repr, Inhabited

/-- File, line and column with colons between them. -/
def Location.render (location : Location) : String :=
  location.file ++ ":" ++ toString location.line ++ ":" ++ toString location.column

/-- The table of the lines of one file. -/
structure LineTable where
  file : String
  /-- The offsets at which lines start, in ascending order; the first is zero. -/
  starts : Array Nat
  /-- The length of the source in bytes. -/
  length : Nat
  deriving DecidableEq, Repr, Inhabited

/-- Where an offset stands among the offsets at which lines start. -/
inductive LineSlot where
  /-- The line at `index` starts there. -/
  | start (index : Nat)
  /-- No line starts there. Those before `index` start before the offset, the others after it. -/
  | inside (index : Nat)
  deriving DecidableEq, Repr

/-- The index of the line that holds the offset. The first line starts at zero, so there is one before an offset
inside a line. -/
def LineSlot.line : LineSlot → Nat
  | start index => index
  | inside index => index - 1

namespace LineTable

/-- The offsets right after the line feeds of a text that begins at `offset`. -/
def startsAfter (offset : Nat) : List Char → List Nat
  | [] => []
  | c :: rest =>
    let next := offset + c.utf8Size
    if c = '\n' then next :: startsAfter next rest else startsAfter next rest

def ofSource (file : String) (source : List Char) : LineTable where
  file := file
  starts := (0 :: startsAfter 0 source).toArray
  length := Text.byteLength source

/-- The slot of `offset` among the starts of lines from `low` up to and without `high`. -/
def search (starts : Array Nat) (offset low high : Nat) : LineSlot :=
  if low < high then
    let middle := (low + high) / 2
    let start := starts.getD middle 0
    if start = offset then .start middle
    else if start < offset then search starts offset (middle + 1) high
    else search starts offset low middle
  else .inside low
termination_by high - low
decreasing_by all_goals omega

def slot (table : LineTable) (offset : Nat) : LineSlot :=
  search table.starts offset 0 table.starts.size

/-- The location of an offset. Offsets past the end stand for the end. -/
def locate (table : LineTable) (offset : Nat) : Location :=
  let offset := min offset table.length
  let index := (table.slot offset).line
  { file := table.file
    line := index + 1
    column := offset - table.starts.getD index 0 + 1
    offset := offset }

end LineTable

end DocIndex
