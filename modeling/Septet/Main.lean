import Septet.CommandLine.Run
import Septet.CommandLine.Timestamp
import Septet.Database.Image
import Std.Time.Format

/-!
# The program

The program looks up what a command line may need of the files around it, runs the
command line on that, and makes the files what they are after the run.  A database
is kept as its image in a file in its directory.
-/

namespace Septet.CommandLine

set_option autoImplicit false

/-! ## Looking at files -/

/-- The text of a location. -/
def locationText (location : Location) : String :=
  "/" ++ "/".intercalate location

/-- What is at a location; what can be neither read nor missing is taken for a directory. -/
def lookAt (location : Location) : IO (Option Node) := do
  try
    let bytes ← IO.FS.readBinFile (locationText location)
    pure (some (.file bytes.toList))
  catch error =>
    match error with
    | .noFileOrDirectory .. => pure none
    | .inappropriateType .. => pure (some .directory)
    | _ => pure none

/-- The locations that names lead through from a location. -/
def passed : Location → List String → List Location
  | location, [] => [location]
  | location, name :: rest =>
      location :: passed (if name = ".." then location.dropLast else location ++ [name]) rest

/-- The locations that a path leads through. -/
def passedBy (files : FileSystem) (path : Path) : List Location :=
  match path.start with
  | .workingDirectory => passed files.workingDirectory path.names
  | _ => passed [] path.names

/-- The files together with what is at the locations that paths lead through. -/
def lookAlong (files : FileSystem) (paths : List Path) : IO FileSystem :=
  (paths.flatMap (passedBy files)).foldlM
    (fun files location => do
      match ← lookAt location with
      | some node => pure (files.set location node)
      | none => pure files)
    files

/-! ## Databases -/

/-- The name of the file with the image of a database. -/
def imageName : String := "image"

/-- The location of a database with its image, if there is one. -/
def loadVaults (location : Location) : IO (List (Location × Vault)) := do
  match ← lookAt (location ++ [imageName]) with
  | some (.file bytes) =>
      match Database.ofImage bytes with
      | .ok contents => pure [(location, { contents, holder := none })]
      | .error _ => pure []
  | _ => pure []

/-! ## Before and after a run -/

/-- The file that a command reads. -/
def fileOf : Command → List Path
  | .dump _ file => [Path.ofText file]
  | _ => []

/-- The file of the log that an invocation or the settings of its store name. -/
def logOf (files : FileSystem) (path : Option Path) (invocation : Invocation) : List Path :=
  let set := match path.map (Store.loadSettings files) with
    | some (.ok settings) => (settings.get logPathKey .null).display?.toList
    | _ => []
  (invocation.logFile.toList ++ set).map fun file => (Path.ofText file).absolute files.workingDirectory

/-- The path of the database of the store with a path. -/
def databaseOf (path : Path) : Path :=
  (Store.ofOptions path Options.default).databasePath

/-- The machine that a command line finds. -/
def findMachine (surroundings : Surroundings) (strings : List String) : IO Machine := do
  let workingDirectory := (Path.ofText (← IO.currentDir).toString).names
  let files : FileSystem := { workingDirectory, nodes := [] }
  let files ← lookAlong files [{ start := .root, names := workingDirectory }]
  match Invocation.read strings with
  | .error _ => pure { disk := { files } }
  | .ok invocation =>
      let path := storePathOf? surroundings { disk := { files } } invocation
      let ofStore := path.toList.flatMap fun path => [Store.settingsPath path, databaseOf path]
      let files ← lookAlong files (ofStore ++ fileOf invocation.command)
      let files ← lookAlong files (logOf files path invocation)
      let vaults ← match path.map fun path => files.follow (databaseOf path) with
        | some (.ok location) => loadVaults location
        | _ => pure []
      pure { disk := { files, vaults } }

/-- Makes what is at a location what it is after a run. -/
def keepNode (before : FileSystem) (entry : Location × Node) : IO Unit := do
  if before.node? entry.1 = some entry.2 then pure ()
  else
    match entry.2 with
    | .directory => IO.FS.createDirAll (locationText entry.1)
    | .file content => IO.FS.writeBinFile (locationText entry.1) ⟨content.toArray⟩

/-- Makes the files what they are after a run. -/
def keep (before after : Disk) : IO Unit := do
  after.files.nodes.reverse.forM (keepNode before.files)
  after.vaults.forM fun (location, vault) =>
    IO.FS.writeBinFile (locationText (location ++ [imageName])) ⟨vault.contents.image.toArray⟩

/-- Runs a command line on the files around the program. -/
def runProgram (strings : List String) : IO UInt32 := do
  let now ← Std.Time.Timestamp.now
  let surroundings : Surroundings := {
    storePath := ← IO.getEnv "VLQDB_STORE"
    time := timestamp now.toMillisecondsSinceUnixEpoch.val.toNat
    hash := Murmur3.hash }
  let machine ← findMachine surroundings strings
  let (outcome, after) := run surroundings strings machine
  keep machine.disk after.disk
  (← IO.getStdout).putStr outcome.printed
  (← IO.getStderr).putStr outcome.reported
  match outcome.ending with
  | .exit code => pure code.toUInt32
  | .failed cause => do
      (← IO.getStderr).putStrLn cause.message
      pure 1

end Septet.CommandLine

/-- The program. -/
def main (strings : List String) : IO UInt32 :=
  Septet.CommandLine.runProgram strings
