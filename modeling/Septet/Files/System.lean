import Septet.Bytes
import Septet.Files.Path
import Septet.Text.Quoted
import Septet.Text.Utf8

/-!
# Files and directories

Files and directories are kept by their locations, the names on the way from the
root.  A path is followed name by name, and every name but the last has to be that
of a directory; so following a path can fail even where nothing is to be found at
its end, and where it succeeds, something can be made at its end.

What changes the files and may fail is a state transformer: the files that it had
made before it failed are still there.
-/

namespace Septet

set_option autoImplicit false

/-! ## Causes of failure -/

/-- What can be wrong with a path. -/
inductive FileProblem where
  | missing
  | existing
  /-- A file stands where a directory has to. -/
  | notDirectory
  /-- A directory stands where a file has to. -/
  | isDirectory
  /-- A name or the whole path is too long. -/
  | tooLong
  /-- The path contains the character with the number zero. -/
  | nullCharacter
  deriving DecidableEq, Repr

/-- A failure, with the path that it is about. -/
structure FileError where
  problem : FileProblem
  path : String
  deriving DecidableEq, Repr

def FileError.message (error : FileError) : String :=
  let about := fun (number : Nat) (text : String) =>
    s!"[Errno {number}] " ++ text ++ ": " ++ Quoted.text error.path
  match error.problem with
  | .missing => about 2 "No such file or directory"
  | .existing => about 17 "File exists"
  | .notDirectory => about 20 "Not a directory"
  | .isDirectory => about 21 "Is a directory"
  | .tooLong => about 36 "File name too long"
  | .nullCharacter => "embedded null byte"

/-! ## Files -/

/-- The names on the way from the root. -/
abbrev Location := List String

/-- What can be at a location. -/
inductive Node where
  | directory
  | file (content : Bytes)
  deriving DecidableEq, Repr

/-- Files and directories. -/
structure FileSystem where
  /-- Where paths start that do not start at a root. -/
  workingDirectory : Location
  /-- What is at the locations below the root; the first entry of a location counts. -/
  nodes : List (Location × Node)
  deriving Repr

namespace FileSystem

/-- What is at a location. -/
def node? (files : FileSystem) (location : Location) : Option Node :=
  if location.isEmpty then some .directory else files.nodes.lookup location

/-- The files with something else at a location. -/
def set (files : FileSystem) (location : Location) (node : Node) : FileSystem :=
  { files with nodes := (location, node) :: files.nodes.filter fun entry => entry.1 != location }

/-! ## Following paths -/

/-- The greatest number of bytes of a name. -/
def nameLimit : Nat := 255

/-- The greatest number of bytes of a path. -/
def pathLimit : Nat := 4095

/-- Follows names from a location. -/
def walk (files : FileSystem) : Location → List String → Except FileProblem Location
  | location, [] => .ok location
  | location, name :: rest =>
      match files.node? location with
      | none => .error .missing
      | some (.file _) => .error .notDirectory
      | some .directory =>
          if name = ".." then files.walk location.dropLast rest
          else if nameLimit < name.utf8ByteSize then .error .tooLong
          else files.walk (location ++ [name]) rest

/-- The location that a path leads to. -/
def follow (files : FileSystem) (path : Path) : Except FileProblem Location :=
  if path.text.toList.contains '\x00' then .error .nullCharacter
  else if pathLimit < path.text.utf8ByteSize then .error .tooLong
  else
    match path.start with
    | .workingDirectory => files.walk files.workingDirectory path.names
    | _ => files.walk [] path.names

/-- The location that a path leads to; a failure is about the path. -/
def locate (files : FileSystem) (path : Path) : Except FileError Location :=
  (files.follow path).mapError fun problem => ⟨problem, path.text⟩

/-! ## Reading -/

/-- What a path leads to, if it leads to anything. -/
def find (files : FileSystem) (path : Path) : Except FileError (Option Node) :=
  match files.follow path with
  | .ok location => .ok (files.node? location)
  | .error .tooLong => .error ⟨.tooLong, path.text⟩
  | .error _ => .ok none

/-- The content of a file. -/
def read (files : FileSystem) (path : Path) : Except FileError Bytes := do
  match files.node? (← files.locate path) with
  | none => .error ⟨.missing, path.text⟩
  | some .directory => .error ⟨.isDirectory, path.text⟩
  | some (.file content) => .ok content

end FileSystem

/-! ## Writing -/

/-- A change of files, which may fail. -/
abbrev FileM := EStateM FileError FileSystem

namespace FileM

/-- What the files tell. -/
def ask {α : Type} (question : FileSystem → Except FileError α) : FileM α := fun files =>
  match question files with
  | .ok answer => .ok answer files
  | .error error => .error error files

/-- Makes a directory in a directory. -/
def makeOnly (path : Path) : FileM Unit := do
  let location ← ask fun files => files.locate path
  match (← get).node? location with
  | some _ => throw ⟨.existing, path.text⟩
  | none => modify fun files => files.set location .directory

/-- Makes a directory in a directory, unless it is there. -/
def makeOne (path : Path) : FileM Unit :=
  tryCatch (makeOnly path) fun error => do
    match error.problem with
    | .existing =>
        match ← ask fun files => files.find path with
        | some .directory => pure ()
        | _ => throw error
    | _ => throw error

/-- Makes a directory unless it is there, and first those that lead to it, up to `depth` of them. -/
def makeWithin : Nat → Path → FileM Unit
  | 0, path => makeOne path
  | depth + 1, path =>
      tryCatch (makeOne path) fun error => do
        match error.problem with
        | .missing =>
            if path.names.isEmpty then throw error
            else do
              makeWithin depth path.parent
              makeOne path
        | _ => throw error

/-- Makes a directory and all that lead to it, unless they are there. -/
def makeDirectories (path : Path) : FileM Unit :=
  makeWithin path.names.length path

/-- The location of a file that may be written. -/
def locateFile (path : Path) : FileM Location := do
  let location ← ask fun files => files.locate path
  match (← get).node? location with
  | some .directory => throw ⟨.isDirectory, path.text⟩
  | _ => pure location

/-- Writes a file in place of what it was. -/
def write (path : Path) (content : Bytes) : FileM Unit := do
  let location ← locateFile path
  modify fun files => files.set location (.file content)

/-- Writes behind the end of a file, which comes into being if it is missing; where it is. -/
def append (path : Path) (content : Bytes) : FileM Location := do
  let location ← locateFile path
  let held := match (← get).node? location with
    | some (.file held) => held
    | _ => []
  modify fun files => files.set location (.file (held ++ content))
  pure location

end FileM

end Septet
