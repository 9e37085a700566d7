import Brainfuck.Error
import Brainfuck.Path

/-!
A file system without links. Directories and files stand at locations, the lists of names that lead
to them from the root. A path is followed from the working directory or from the root, one component
after the other; every component but the last has to be a directory. Reading and writing refuse what
an operating system refuses, for the same reasons.
-/

namespace Brainfuck

/-- Directories and files by location. The root is always a directory. -/
structure FileSystem where
  workingDirectory : List String
  directories : List (List String)
  files : List (List String × List UInt8)
deriving DecidableEq, Repr

namespace FileSystem

/-- What can stand at a location. -/
inductive Node where
  | directory
  | file (content : List UInt8)
deriving DecidableEq, Repr

/-- What stands at a location. -/
def node? (fs : FileSystem) (location : List String) : Option Node :=
  if location.isEmpty || fs.directories.contains location then some .directory
  else (fs.files.lookup location).map .file

/-- The most bytes that a name can have. -/
def nameLimit : Nat :=
  255

/-- The number of bytes at which a path is too long. -/
def pathLimit : Nat :=
  4096

/-- The place that a name leads to from a directory. -/
def child (location : List String) (name : String) : List String :=
  if name = "." then location
  else if name = ".." then location.dropLast
  else location ++ [name]

/-- The directory that a name leads to from a directory. -/
def enter (fs : FileSystem) (location : List String) (name : String) :
    Except SystemError (List String) :=
  if nameLimit < name.utf8ByteSize then .error .nameTooLong
  else
    let next := child location name
    match fs.node? next with
    | some .directory => .ok next
    | some (.file _) => .error .notADirectory
    | none => .error .notFound

/-- A path followed up to its last component: the directory that this is looked up in, its name,
and whether the spelling demands a directory. The root is spelled without any name. -/
structure Target where
  directory : List String
  name : Option String
  demandsDirectory : Bool
deriving DecidableEq, Repr

/-- Follows a path up to its last component. -/
def target (fs : FileSystem) (path : String) : Except SystemError Target :=
  if path.isEmpty then .error .notFound
  else if pathLimit ≤ path.utf8ByteSize then .error .nameTooLong
  else
    let start := if Path.isAbsolute path then [] else fs.workingDirectory
    let pieces := Path.pieces path
    let names := (pieces.filter (· != [])).map String.ofList
    let last := names.getLast?
    do
      let directory ← names.dropLast.foldlM fs.enter start
      return {
        directory
        name := last
        demandsDirectory := pieces.getLast? == some [] || last == some "." || last == some ".." }

/-- The location that a target spells. -/
def Target.location (t : Target) : List String :=
  t.name.elim t.directory (child t.directory)

/-- What stands where a path leads. -/
def lookUp (fs : FileSystem) (path : String) : Except SystemError Node := do
  let target ← fs.target path
  if nameLimit < (target.name.getD "").utf8ByteSize then
    throw .nameTooLong
  match fs.node? target.location with
  | none => throw .notFound
  | some (.file content) =>
      if target.demandsDirectory then throw .notADirectory else return .file content
  | some .directory => return .directory

/-- The content of the file that a path leads to. -/
def read (fs : FileSystem) (path : String) : Except SystemError (List UInt8) := do
  match ← fs.lookUp path with
  | .file content => return content
  | .directory => throw .isADirectory

/-- Adds a directory, and the directories that it lies in. -/
def addDirectory (fs : FileSystem) (location : List String) : FileSystem :=
  let lineage := (List.range location.length).map fun n => location.take (n + 1)
  { fs with directories := lineage ++ fs.directories }

/-- Puts content at a location, in place of a file that is there. -/
def put (fs : FileSystem) (location : List String) (content : List UInt8) : FileSystem :=
  { fs with files := (location, content) :: fs.files.filter (·.1 != location) }

/-- Writes a whole file. A file that is not there is created, in a directory that is. -/
def write (fs : FileSystem) (path : String) (content : List UInt8) :
    Except SystemError FileSystem := do
  let target ← fs.target path
  if target.demandsDirectory then
    throw .isADirectory
  if nameLimit < (target.name.getD "").utf8ByteSize then
    throw .nameTooLong
  match fs.node? target.location with
  | some .directory => throw .isADirectory
  | _ => return fs.put target.location content

end FileSystem

end Brainfuck
