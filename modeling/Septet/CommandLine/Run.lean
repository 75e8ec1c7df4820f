import Septet.CommandLine.Invocation
import Septet.CommandLine.Machine
import Septet.Quantity.Sequence

/-!
# Runs

A run of a command line prints lines and ends with an exit code.  What a command
cannot do is reported as one line behind the name of the program, with exit code 1,
and what had been printed before stays printed; some failures are not reported but
left to whoever runs the program.  Failures before the command itself, where a log is
started or the settings of the store are read for it, are always left to them.

The log goes to the file that the command line names, or else to the one that the
settings of the store name, in place of any that it went to before.
-/

namespace Septet.CommandLine

set_option autoImplicit false

/-! ## Failures -/

/-- Why a run fails. -/
inductive RunError where
  /-- A file cannot be used. -/
  | file (cause : FileError)
  /-- The store has no usable settings. -/
  | setup (cause : SetupError)
  /-- The store cannot do what it was asked for. -/
  | store (cause : StoreError)
  /-- A listing has met a pair that it cannot show. -/
  | listing (cause : RecordError)
  /-- A quantity cannot be read. -/
  | quantity (cause : StreamError)
  /-- A text is not hexadecimal from a position on. -/
  | notHexadecimal (position : Nat)
  /-- The store has no record of a name. -/
  | absent (name : String)
  /-- There is no width to read quantities with. -/
  | widthMissing
  /-- There is no path of the store. -/
  | pathMissing
  /-- An integer that names the file of the log is beyond the limit for numerals. -/
  | logUnwritable
  deriving Repr

def RunError.message : RunError → String
  | file cause => cause.message
  | setup cause => cause.message
  | store cause => cause.message
  | listing cause => cause.message
  | quantity cause => cause.message
  | notHexadecimal position =>
      s!"non-hexadecimal number found in fromhex() arg at position {position}"
  | absent name => "record not found: " ++ name
  | widthMissing => "unhashable type: 'list'"
  | pathMissing => "expected str, bytes or os.PathLike object, not list"
  | logUnwritable => Numeral.limitText none

/-- Whether a failure with a file is reported. -/
def reportsFile (cause : FileError) : Bool :=
  cause.problem = .missing || cause.problem = .nullCharacter

/-- Whether a failure with options is reported. -/
def reportsOption : OptionError → Bool
  | .compressionMissing => true
  | .notCompression _ => true
  | .notComparable _ _ => false
  | .nameless _ => false

/-- Whether a failure with settings is reported. -/
def reportsSetup : SetupError → Bool
  | .file cause => reportsFile cause
  | .settings _ => true
  | .option cause => reportsOption cause

/-- Whether a failure of a store is reported. -/
def reportsStore : StoreError → Bool
  | .directoryMissing _ => true
  | .file cause => reportsFile cause
  | .option cause => reportsOption cause
  | .word _ => false
  | .record _ => true
  | .batch _ => true
  | .notOpen => false
  | .listingClosed => false
  | .database _ => false
  | .noLogger _ _ => false

/-- Whether a failure of a command is reported. -/
def RunError.isReported : RunError → Bool
  | file cause => reportsFile cause
  | setup cause => reportsSetup cause
  | store cause => reportsStore cause
  | listing _ => true
  | quantity _ => true
  | notHexadecimal _ => true
  | absent _ => true
  | widthMissing => false
  | pathMissing => false
  | logUnwritable => true

/-! ## Commands -/

/-- What a run finds around it. -/
structure Surroundings where
  /-- The path of the store that the environment names, if it names one. -/
  storePath : Option String
  /-- The time, as it is logged. -/
  time : String
  /-- The hash of names. -/
  hash : NameHash

/-- A machine, and what has been printed on it. -/
structure Desk where
  machine : Machine
  printed : String := ""

/-- Something that is done in a run. -/
abbrev RunM := EStateM RunError Desk

/-- Prints a line. -/
def printLine (line : String) : RunM Unit :=
  modify fun desk => { desk with printed := desk.printed ++ line ++ "\n" }

/-- Prints lines. -/
def printLines (lines : List String) : RunM Unit :=
  lines.forM printLine

/-- Prints the quantities that bytes hold, and fails behind the last one if more is there. -/
def printQuantities (width : Option Width) (bytes : Bytes) : RunM Unit := do
  match width with
  | none => throw .widthMissing
  | some width =>
      let sequence := Quantity.decodeAll width bytes
      printLines (sequence.values.map toString)
      match sequence.failure with
      | none => pure ()
      | some cause => throw (.quantity cause)

/-- What an outcome holds; its error ends the run. -/
def settle {ε α : Type} (wrap : ε → RunError) : Except ε α → RunM α
  | .ok value => pure value
  | .error cause => throw (wrap cause)

/-- Opens the store with a path, lets it work and closes it. -/
def useStore {α : Type} (surroundings : Surroundings) (path : Path) (action : StoreM α) :
    RunM α := do
  let desk ← get
  let store ← settle .setup (Store.ofSettings desk.machine.disk.files path)
  let (outcome, machine) := desk.machine.work surroundings.time store (Store.whileOpen action)
  set { desk with machine }
  settle .store outcome

/-- Performs a command on the store with a path. -/
def perform (surroundings : Surroundings) (path : Path) : Command → RunM Unit
  | .encode width values =>
      printLines (values.map fun value => Hex.render (Quantity.encode width value))
  | .decode width digits => do
      let bytes ← settle .notHexadecimal (Hex.read digits)
      printQuantities width bytes
  | .dump width file => do
      let files := (← get).machine.disk.files
      let bytes ← settle .file (files.read (Path.ofText file))
      printQuantities width bytes
  | .put name fields =>
      useStore surroundings path
        (Store.put surroundings.hash { name, fields := fields.map Utf8.encode })
  | .get name => do
      match ← useStore surroundings path (Store.fieldsOf surroundings.hash name) with
      | none => throw (.absent name)
      | some fields => printLines (fields.map Utf8.decodeEscaping)
  | .delete name => do
      let existed ← useStore surroundings path (Store.delete surroundings.hash name)
      if existed then pure () else throw (.absent name)
  | .inspect => do
      let listing ← useStore surroundings path (Store.list .line)
      printLines listing.shown
      match listing.failure with
      | none => pure ()
      | some cause => throw (.listing cause)

/-! ## Runs -/

/-- How a run ends. -/
inductive Ending where
  | exit (code : Nat)
  /-- A failure is left to whoever runs the program. -/
  | failed (cause : RunError)
  deriving Repr

/-- What a run has printed, and how it ended. -/
structure Outcome where
  /-- What has been printed. -/
  printed : String
  /-- What has been reported. -/
  reported : String
  ending : Ending
  deriving Repr

/-- The path of the store of an invocation, unless its flag is bare. -/
def storePathOf? (surroundings : Surroundings) (machine : Machine) (invocation : Invocation) :
    Option Path :=
  match invocation.storePath, surroundings.storePath with
  | .given text, _ => some (Path.ofText text)
  | .bare, _ => none
  | .absent, some text => some (Path.ofText text)
  | .absent, none => some { start := .root, names := machine.disk.files.workingDirectory }

/-- The key of the path of the log in settings. -/
def logPathKey : String := "logging.path"

/-- Something that is done before a command. -/
abbrev PreparationM := EStateM RunError Machine

/-- Starts to log to a file, unless messages are logged already. -/
def startLog (file : String) (level : Level) : PreparationM Unit := fun machine =>
  match Machine.startLog file level machine with
  | .ok _ after => .ok () after
  | .error cause after => .error (.file cause) after

/-- Lets the log go to the file that the settings of the store with a path name, if they do. -/
def followSettings (path : Path) : PreparationM Unit := do
  let machine ← get
  match Store.loadSettings machine.disk.files path with
  | .error cause => throw (.setup cause)
  | .ok settings =>
      let file := settings.get logPathKey .null
      if file.isTruthy then do
        set machine.stopLog
        match file.display? with
        | none => throw .logUnwritable
        | some name => startLog name machine.log.level
      else pure ()

/-- The file of the log that an invocation names; an empty name is none. -/
def logFileOf (invocation : Invocation) : Option String :=
  invocation.logFile.filter (· != "")

/-- Lets the log go where it is to go; the path of the store. -/
def prepare (surroundings : Surroundings) (invocation : Invocation) : PreparationM Path := do
  match logFileOf invocation with
  | none => pure ()
  | some file => startLog file (invocation.logLevel.getD .info)
  match storePathOf? surroundings (← get) invocation with
  | none => throw .pathMissing
  | some path =>
      if (logFileOf invocation).isNone then followSettings path
      pure path

/-- The name of the program. -/
def programName : String := "vlqdb"

/-- Performs a command and reports what it cannot do. -/
def conclude (surroundings : Surroundings) (machine : Machine) (path : Path) (command : Command) :
    Outcome × Machine :=
  match perform surroundings path command { machine } with
  | .ok _ desk => ({ printed := desk.printed, reported := "", ending := .exit 0 }, desk.machine)
  | .error cause desk =>
      if cause.isReported then
        let reported := programName ++ ": " ++ cause.message ++ "\n"
        ({ printed := desk.printed, reported, ending := .exit 1 }, desk.machine)
      else ({ printed := desk.printed, reported := "", ending := .failed cause }, desk.machine)

/-- What is reported of strings that do not follow the grammar. -/
def usage : String :=
  "usage: " ++ programName ++ " [-h] [--store PATH] [--log-file PATH] [--log-level LEVEL] COMMAND ...\n"

/-- Runs a command line. -/
def run (surroundings : Surroundings) (strings : List String) (machine : Machine) :
    Outcome × Machine :=
  match Invocation.read strings with
  | .error .help => ({ printed := usage, reported := "", ending := .exit 0 }, machine)
  | .error .misuse => ({ printed := "", reported := usage, ending := .exit 2 }, machine)
  | .ok invocation =>
      match prepare surroundings invocation machine with
      | .ok path ready => conclude surroundings ready path invocation.command
      | .error cause after =>
          ({ printed := "", reported := "", ending := .failed cause }, after)

end Septet.CommandLine
