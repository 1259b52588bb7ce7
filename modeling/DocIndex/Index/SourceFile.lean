import DocIndex.Index.Walk
import DocIndex.Json.Pretty
import DocIndex.Markup.Reader
import DocIndex.Symbol.Json
import DocIndex.Tree.Fault

/-! # Source files

The index of one file: its imports and its documented symbols in document order. -/

namespace DocIndex

structure SourceFile where
  path : String
  imports : List Import
  symbols : List Symbol
  deriving DecidableEq, Repr, Inhabited

/-- Why a file could not be read. -/
inductive ReadError where
  | noSuchFile
  | isDirectory
  | notDirectory
  | notText
  | nameTooLong
  | nulInPath
  deriving DecidableEq, Repr, Inhabited

/-- The words for it, most of them the operating system's. -/
def ReadError.message : ReadError → String
  | noSuchFile => "No such file or directory (os error 2)"
  | isDirectory => "Is a directory (os error 21)"
  | notDirectory => "Not a directory (os error 20)"
  | notText => "stream did not contain valid UTF-8"
  | nameTooLong => "File name too long (os error 36)"
  | nulInPath => "file name contained an unexpected NUL byte"

/-- Why there is no index of a file. -/
inductive IndexError where
  | unreadable (path : String) (cause : ReadError)
  | malformed (path : String) (position : Position)
  /-- The walk lost its balance, which it never does. -/
  | unbalanced (path : String) (imbalance : Imbalance)
  deriving DecidableEq, Repr, Inhabited

namespace IndexError

/-- The file that the error is about. -/
def path : IndexError → String
  | unreadable path _ | malformed path _ | unbalanced path _ => path

def message : IndexError → String
  | unreadable path cause => "failed to read '" ++ path ++ "': " ++ cause.message
  | malformed path position =>
    "syntax error in '" ++ path ++ "' at " ++ toString position.line ++ ":" ++
      toString position.column
  | unbalanced _ imbalance => imbalance.message

end IndexError

namespace SourceFile

/-- Indexes a document under the path that its symbols are to record. -/
def ofDocument (dialect : Markup.Dialect) (allowFaults : Bool) (path : String)
    (document : Document) : Except IndexError SourceFile :=
  match document.accept allowFaults with
  | .error position => .error (.malformed path position)
  | .ok tree =>
    let scene : Scene := ⟨document.source, .ofSource path document.source, dialect⟩
    match scene.walk tree with
    | .ok walk => .ok ⟨path, walk.imports, walk.symbols⟩
    | .error imbalance => .error (.unbalanced path imbalance)

/-! ### JSON -/

def toJson (file : SourceFile) : Json :=
  .object [("path", .string file.path), ("imports", .list Import.toJson file.imports),
    ("symbols", .list Symbol.toJson file.symbols)]

open Json in
def ofJson? (value : Json) : Option SourceFile :=
  match fields? ["path", "imports", "symbols"] value with
  | some [path, imports, symbols] => do
    return ⟨← required string? path, ← required (list? Import.ofJson?) imports,
      ← required (list? Symbol.ofJson?) symbols⟩
  | _ => none

/-- The written form of an index. -/
def render (file : SourceFile) : String :=
  file.toJson.pretty

end SourceFile

end DocIndex
