import DocIndex.Files.FileSystem

/-! # Volumes

A file system held in memory: directories and files, and a working directory that relative paths
start from. There are no links. -/

namespace DocIndex

/-- A file with the names that lead to it from the root. The text is missing when the contents are not
UTF-8. -/
structure StoredFile where
  names : List String
  text : Option String
  deriving DecidableEq, Repr, Inhabited

/-- The contents of a volume. All names lead from the root. The working directory exists, and so does
every directory on the way to it, to a file or to a directory. -/
structure Volume where
  working : List String
  files : List StoredFile
  directories : List (List String)
  deriving DecidableEq, Repr, Inhabited

namespace Volume

/-- The names in a path without steps up. -/
def namesOf (path : Path) : List String :=
  path.components.filterMap fun component =>
    match component with
    | .name text => some text
    | _ => none

/-- A volume whose files and directories are given by paths from its working directory. -/
def around (working : List String) (files : List (Path × Option String))
    (directories : List Path) : Volume where
  working := working
  files := files.map fun file => ⟨working ++ namesOf file.1, file.2⟩
  directories := directories.map (working ++ namesOf ·)

def file? (volume : Volume) (names : List String) : Option StoredFile :=
  volume.files.find? (·.names == names)

/-- Directories of a volume. Every other one is on the way to one of them. -/
def deepDirectories (volume : Volume) : List (List String) :=
  volume.working :: volume.directories ++ volume.files.map (·.names.dropLast)

/-- Whether names lead to a directory. -/
def hasDirectory (volume : Volume) (names : List String) : Bool :=
  volume.deepDirectories.any (names.isPrefixOf ·)

/-- What a path leads to. -/
inductive Entry where
  | directory (names : List String)
  | file (file : StoredFile)
  deriving DecidableEq, Repr

/-- The names that lead to an entry. -/
def Entry.names : Entry → List String
  | .directory names => names
  | .file stored => stored.names

/-- The one absolute spelling of an entry. -/
def Entry.path (entry : Entry) : Path :=
  ⟨"/" ++ "/".intercalate entry.names⟩

/-- The most bytes that a name may have. -/
def nameLimit : Nat := 255

/-- The most bytes that a path may have. -/
def pathLimit : Nat := 4095

def isTooLong (path : Path) : Bool :=
  pathLimit < path.text.utf8ByteSize

/-- One step from a directory. The step up from the root stays there. -/
def enter (volume : Volume) (names : List String) : Path.Component → Except ReadError Entry
  | .root => .ok (.directory [])
  | .current => .ok (.directory names)
  | .parent => .ok (.directory names.dropLast)
  | .name text =>
    if nameLimit < text.utf8ByteSize then .error .nameTooLong
    else
      let names := names ++ [text]
      match volume.file? names with
      | some file => .ok (.file file)
      | none =>
        if volume.hasDirectory names then .ok (.directory names) else .error .noSuchFile

/-- One step from an entry. Only directories lead on. -/
def stepFrom (volume : Volume) : Entry → Path.Component → Except ReadError Entry
  | .directory names, component => volume.enter names component
  | .file _, _ => .error .notDirectory

/-- Whether a path says by its last piece that it names a directory. -/
def wantsDirectory (path : Path) : Bool :=
  match path.pieces.getLast? with
  | some piece => !Path.counts piece && !(Path.trimRight path.pieces).isEmpty
  | none => false

/-- Refuses the texts that lead nowhere: the empty one and those with a NUL. -/
def checkText (path : Path) : Except ReadError Unit :=
  if path.text.toList.any (· == '\x00') then .error .nulInPath
  else if path.text.isEmpty then .error .noSuchFile
  else .ok ()

/-- Where the components of a path lead from the working directory, one step after the other. -/
def follow (volume : Volume) (step : Entry → Path.Component → Except ReadError Entry)
    (path : Path) : Except ReadError Entry := do
  match ← path.components.foldlM step (.directory volume.working) with
  | .directory names => return .directory names
  | .file file => if wantsDirectory path then .error .notDirectory else return .file file

/-- What a path leads to. The path must not be too long. -/
def resolve (volume : Volume) (path : Path) : Except ReadError Entry := do
  checkText path
  if isTooLong path then .error .nameTooLong else volume.follow volume.stepFrom path

/-- One step from an entry to one whose absolute spelling is not too long. -/
def absoluteStep (volume : Volume) (entry : Entry) (component : Path.Component) :
    Except ReadError Entry := do
  let next ← volume.stepFrom entry component
  if isTooLong next.path then .error .nameTooLong else return next

/-- The absolute spelling of what a path leads to. However long the path is, only the absolute
spellings of the entries on its way must not be too long. -/
def canonical (volume : Volume) (path : Path) : Except ReadError Path := do
  checkText path
  return (← volume.follow volume.absoluteStep path).path

/-- The spelling that the search gives to a directory: a `.` at the start is left out. A separator
right after it leads nowhere. -/
def searchStart? : Path → List (List Char) → Option Path
  | path, [] => some path
  | path, piece :: rest =>
    if path.text = "." then
      if piece.isEmpty then none else searchStart? ⟨String.ofList piece⟩ rest
    else if piece.isEmpty then
      searchStart? (path.child "") rest
    else searchStart? (path.child (String.ofList piece)) rest

/-- Whether one list of names comes before another in the order of the search. -/
def namesLe : List String → List String → Bool
  | [], _ => true
  | _ :: _, [] => false
  | a :: as, b :: bs => a < b || (a == b && namesLe as bs)

/-- The names of the files below a directory, directories in the place of their names. -/
def below (volume : Volume) (names : List String) : List (List String) :=
  (volume.files.filterMap fun file =>
    (names.isPrefixOf? file.names).filter (!·.isEmpty)).mergeSort namesLe

/-- A path below another, which is left out if it is just a `.`. -/
def spell (start : Path) (names : List String) : Path :=
  names.foldl (fun path name => if path.text = "." then ⟨name⟩ else path.child name) start

/-- The spelling that the search gives to a directory, which keeps a separator at its start. -/
def searchRoot? (directory : Path) : Option Path :=
  match directory.text.toList with
  | '/' :: rest => searchStart? ⟨"/"⟩ (Path.split rest)
  | text => searchStart? ⟨"."⟩ (Path.split text)

/-- Whether the search can list every directory below one: none of their paths is too long. -/
def canList (volume : Volume) (names : List String) (start : Path) : Bool :=
  (volume.deepDirectories.filterMap (names.isPrefixOf? ·)).all fun rest =>
    !isTooLong (spell start rest)

/-- The files below a directory in the order of the search. -/
def search? (volume : Volume) (directory : Path) : Option (List Path) :=
  match volume.resolve directory, searchRoot? directory with
  | .ok (.directory names), some start =>
    if volume.canList names start then some ((volume.below names).map (spell start)) else none
  | _, _ => some []

/-- A volume as a file system. -/
def fileSystem (volume : Volume) : FileSystem where
  isDirectory path :=
    match volume.resolve path with
    | .ok (.directory _) => true
    | _ => false
  isFile path :=
    match volume.resolve path with
    | .ok (.file _) => true
    | _ => false
  canonical? path := (volume.canonical path).toOption
  search? := volume.search?
  read path :=
    match volume.resolve path with
    | .ok (.directory _) => .error .isDirectory
    | .ok (.file file) =>
      match file.text with
      | some text => .ok text
      | none => .error .notText
    | .error error => .error error

end Volume

end DocIndex
