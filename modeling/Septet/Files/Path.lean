/-!
# Paths

A path is a sequence of names, which lead from a root or from the working
directory to a file.  Its text is kept in one form: a single slash between two
names and none at the end, no name that stands for the directory itself, and a
point for a path without names.  The name that leads back to the enclosing
directory is kept, since only the files tell where it leads; what it takes back is
taken back at once where a path is made absolute.
-/

namespace Septet

set_option autoImplicit false

/-- Where a path starts. -/
inductive PathStart where
  | workingDirectory
  | root
  /-- A root with two slashes may be another one than that with a single slash. -/
  | otherRoot
  deriving DecidableEq, Repr

/-- The text of a start. -/
def PathStart.text : PathStart → String
  | workingDirectory => ""
  | root => "/"
  | otherRoot => "//"

/-- A path. -/
structure Path where
  start : PathStart
  /-- The names that it leads through. -/
  names : List String
  deriving DecidableEq, Repr

namespace Path

/-! ## Text -/

/-- The parts of a text between its slashes. -/
def partsOf : List Char → List (List Char)
  | [] => [[]]
  | character :: rest =>
      if character = '/' then [] :: partsOf rest
      else
        match partsOf rest with
        | [] => [[character]]
        | part :: parts => (character :: part) :: parts

/-- The start of a path with the given text. -/
def startOf : List Char → PathStart
  | '/' :: '/' :: '/' :: _ => .root
  | '/' :: '/' :: _ => .otherRoot
  | '/' :: _ => .root
  | _ => .workingDirectory

/-- The path that a text stands for. -/
def ofText (text : String) : Path where
  start := startOf text.toList
  names := ((partsOf text.toList).map String.ofList).filter fun name => name != "" && name != "."

/-- The text of a path. -/
def text (path : Path) : String :=
  match path.start, path.names with
  | .workingDirectory, [] => "."
  | start, names => start.text ++ "/".intercalate names

/-! ## Changes -/

/-- The path of a file within a directory, given by the names that lead to it. -/
def append (path : Path) (names : List String) : Path :=
  { path with names := path.names ++ names }

/-- The path without its last name. -/
def parent (path : Path) : Path :=
  { path with names := path.names.dropLast }

/-- The names left when each return takes back the name before it. -/
def takeBack : List String → List String
  | names => (names.foldl (fun earlier name => if name = ".." then earlier.drop 1 else name :: earlier)
      []).reverse

/-- The path from the root, with all that is taken back left out. -/
def absolute (workingDirectory : List String) (path : Path) : Path :=
  match path.start with
  | .workingDirectory => { start := .root, names := takeBack (workingDirectory ++ path.names) }
  | start => { start, names := takeBack path.names }

end Path

end Septet
