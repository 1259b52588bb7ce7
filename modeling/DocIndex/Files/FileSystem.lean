import DocIndex.Files.Ignore
import DocIndex.Index.SourceFile

/-! # File systems

What the index asks of a file system, and the two questions that it answers through it: under which
path a file is recorded, and which patterns a directory ignores. -/

namespace DocIndex

/-- A file system, as far as the index looks at it. -/
structure FileSystem where
  isDirectory : Path → Bool
  isFile : Path → Bool
  /-- The one absolute spelling of a path that exists. -/
  canonical? : Path → Option Path
  /-- The files below a directory in the order of the search, spelled as the search finds them. There
  are none to give if a directory among them cannot be listed. -/
  search? : Path → Option (List Path)
  read : Path → Except ReadError String

namespace FileSystem

variable (files : FileSystem)

def hasEntry (path : Path) : Bool :=
  files.isDirectory path || files.isFile path

/-- A file is not below the directory that it is to be reported against. -/
structure NotWithin where
  file : Path
  base : Path
  deriving DecidableEq, Repr

def NotWithin.message (error : NotWithin) : String :=
  "File path '" ++ error.file.text ++ "' is not within base directory '" ++ error.base.text ++ "'"

/-- The path of a file below a directory. If both exist their canonical spellings are compared. -/
def relative (file base : Path) : Except NotWithin String :=
  let (file, base) :=
    match files.canonical? file, files.canonical? base with
    | some file, some base => (file, base)
    | _, _ => (file, base)
  match file.relativeTo? base with
  | some path => .ok path.text
  | none => .error ⟨file, base⟩

/-- The path that a file is recorded under: below the directory if it is there, and as given
otherwise. -/
def recordedPath (file base : Path) : String :=
  match files.relative file base with
  | .ok path => path
  | .error _ => file.text

/-- The patterns in the ignore file of a directory, and the path of that file if it cannot be
read. -/
def ignorePatterns (directory : Path) : Except Path (List String) :=
  let path := directory.child Ignore.fileName
  if files.hasEntry path then
    match files.read path with
    | .ok text => .ok (Ignore.patterns text)
    | .error _ => .error path
  else .ok []

end FileSystem

/-- Reads the tree of a source text. -/
abbrev Grammar := String → Node

/-- Indexes a file that is reported against a directory. -/
def SourceFile.build (files : FileSystem) (grammar : Grammar) (dialect : Markup.Dialect)
    (allowFaults : Bool) (file base : Path) : Except IndexError SourceFile :=
  let path := files.recordedPath file base
  match files.read file with
  | .ok text => ofDocument dialect allowFaults path ⟨text.toList, grammar text⟩
  | .error cause => .error (.unreadable path cause)

end DocIndex
