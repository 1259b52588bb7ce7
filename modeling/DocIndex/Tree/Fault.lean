import DocIndex.Tree.Node

/-! # Faults of a tree

A tree with a part that could not be parsed is refused, unless the caller takes it as it is. The
refusal names the first such place that the tree shows. -/

namespace DocIndex

mutual

/-- The first faulty node, found by descending into the first child that has an error. A node whose
fault lies in no listed child stands for it. -/
def Node.firstFault? : Node → Option Node
  | .mk info children =>
    if !info.hasError then none
    else if info.isError || info.isMissing then some (.mk info children)
    else some ((firstFaultAmong? children).getD (.mk info children))

def firstFaultAmong? : List Node → Option Node
  | [] => none
  | node :: rest => node.firstFault? <|> firstFaultAmong? rest

end

/-- A source text and its syntax tree. -/
structure Document where
  source : List Char
  tree : Node
  deriving Repr, Inhabited

/-- A position counted from one: line, and byte within the line. -/
structure Position where
  line : Nat
  column : Nat
  deriving DecidableEq, Repr

/-- The position of a byte offset, found by counting. -/
def Position.ofOffset (source : List Char) (offset : Nat) : Position :=
  ⟨Text.row source offset + 1, Text.column source offset + 1⟩

/-- The tree of a document. If it has a fault and faults are not allowed, the position of the first takes
its place. -/
def Document.accept (document : Document) (allowFaults : Bool) : Except Position Node :=
  if allowFaults then .ok document.tree
  else
    match document.tree.firstFault? with
    | some node => .error (.ofOffset document.source node.start)
    | none => .ok document.tree

end DocIndex
