import DocIndex.Files.FileSystem

/-! # Modules

The index of a module: the files under a list of paths, ordered by the path that they are recorded
under. Directories are searched for Swift files; a path to a file is taken as it is. A file found
twice counts once, and a file without an index is left out. -/

namespace DocIndex

/-- The indexed files of a module. -/
structure Module where
  name : String
  sourceFiles : List SourceFile
  deriving DecidableEq, Repr, Inhabited

/-- What a module is built with. -/
structure ModuleOptions where
  /-- Patterns of paths to leave out. -/
  exclude : List String := []
  includeHidden : Bool := false
  allowFaults : Bool := false
  deriving DecidableEq, Repr, Inhabited

/-- Why the files of a module could not be found. -/
inductive SearchError where
  | missing (path : Path)
  | unreadable (path : Path)
  | unsearchable (path : Path)
  deriving DecidableEq, Repr, Inhabited

def SearchError.message : SearchError → String
  | missing path => "Path does not exist: " ++ path.text
  | unreadable path => "Failed to read " ++ path.text
  | unsearchable path => "Failed to search " ++ path.text

/-- A file to index and the directory that it is reported against. -/
structure FoundFile where
  file : Path
  base : Path
  deriving DecidableEq, Repr, Inhabited

namespace Module

variable (files : FileSystem) (options : ModuleOptions)

/-- Whether a file that the search of a directory found is to be indexed. -/
def accepts (patterns : List String) (directory file : Path) : Bool :=
  let relative := (file.relativeTo? directory).getD file
  files.isFile file && file.isSwift && (options.includeHidden || !relative.isHidden) &&
    !Ignore.isIgnored patterns relative

/-- The files to index below a directory. -/
def filesBelow (directory : Path) : Except SearchError (List FoundFile) :=
  match files.ignorePatterns directory with
  | .error path => .error (.unreadable path)
  | .ok patterns =>
    match files.search? directory with
    | none => .error (.unsearchable directory)
    | some found =>
      .ok ((found.filter
        (accepts files options (options.exclude ++ patterns) directory)).map (⟨·, directory⟩))

/-- The files to index under one path. -/
def filesUnder (path : Path) : Except SearchError (List FoundFile) :=
  if files.isDirectory path then filesBelow files options path
  else if files.isFile path then .ok [⟨path, path.parent⟩]
  else .error (.missing path)

/-- Adds the entries whose files are not there yet. -/
def addNew (known : List FoundFile) : List FoundFile → List FoundFile
  | [] => known
  | entry :: rest =>
    if known.any (·.file.components == entry.file.components) then addNew known rest
    else addNew (known ++ [entry]) rest

/-- The files to index under some paths, each once, after those that are known already. -/
def filesUnderAfter (known : List FoundFile) : List Path → Except SearchError (List FoundFile)
  | [] => .ok known
  | path :: rest =>
    match filesUnder files options path with
    | .ok found => filesUnderAfter (addNew known found) rest
    | .error error => .error error

/-- The files to index under some paths, each once. -/
def filesUnderAll (paths : List Path) : Except SearchError (List FoundFile) :=
  filesUnderAfter files options [] paths

/-- The order of files in a module. -/
def pathLe (a b : SourceFile) : Bool :=
  a.path ≤ b.path

/-- The indexes of some files, ordered by path. -/
def index (grammar : Grammar) (found : List FoundFile) : List SourceFile :=
  (found.filterMap fun entry =>
    (SourceFile.build files grammar Markup.read options.allowFaults entry.file
      entry.base).toOption).mergeSort pathLe

/-- Builds the index of a module. -/
def build (grammar : Grammar) (name : String) (paths : List Path) :
    Except SearchError Module :=
  match filesUnderAll files options paths with
  | .ok found => .ok ⟨name, index files options grammar found⟩
  | .error error => .error error

/-- The symbols of all files. -/
def symbols (m : Module) : List Symbol :=
  m.sourceFiles.flatMap (·.symbols)

/-- Inserts a text into an ordered list, unless it is there. -/
def insertText (text : String) : List String → List String
  | [] => [text]
  | other :: rest =>
    if text < other then text :: other :: rest
    else if text = other then other :: rest
    else other :: insertText text rest

/-- The paths that the files import, in order and each once. -/
def imports (m : Module) : List String :=
  ((m.sourceFiles.flatMap (·.imports)).map (·.path)).foldl (fun known path => insertText path known) []

def toJson (m : Module) : Json :=
  .object [("name", .string m.name), ("source_files", .list SourceFile.toJson m.sourceFiles)]

end Module

end DocIndex
