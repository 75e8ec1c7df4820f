import Septet.Store.Setup

/-!
# Machines

A machine is what the runs of commands share: a disk, and a log, which goes to one
file at a time and takes messages from a level on.  Logging to a file starts only
where there is none yet; the file is made at once, and the path of the file is made
absolute first.  Every message is one line, behind the time and between hyphens.
-/

namespace Septet.CommandLine

set_option autoImplicit false

/-- Where messages are logged, and how heavy they have to be. -/
structure Log where
  /-- The file with the log, if there is one. -/
  file : Option Path := none
  /-- The least level of what is logged. -/
  level : Level := .warning
  deriving DecidableEq, Repr

/-- What the runs of commands share. -/
structure Machine where
  disk : Disk
  log : Log := {}

namespace Machine

/-- The line of a message in a log. -/
def lineOf (time : String) (message : Message) : String :=
  " - ".intercalate [time, message.logger, message.level.name, message.text] ++ "\n"

/-- Stops logging; the level stays. -/
def stopLog (machine : Machine) : Machine :=
  { machine with log := { machine.log with file := none } }

/-- Starts to log to a file, unless messages are logged already. -/
def startLog (file : String) (level : Level) : EStateM FileError Machine Unit := fun machine =>
  if machine.log.file.isSome then .ok () machine
  else
    let path := (Path.ofText file).absolute machine.disk.files.workingDirectory
    match FileM.append path [] machine.disk.files with
    | .ok _ files =>
        .ok () { disk := { machine.disk with files }, log := { file := some path, level } }
    | .error cause _ => .error cause machine

/-- Logs the messages of a journal that are heavy enough. -/
def record (machine : Machine) (time : String) (journal : Journal) : Machine :=
  match machine.log.file with
  | none => machine
  | some path =>
      let heavy := journal.filter fun message =>
        decide (machine.log.level.weight ≤ message.level.weight)
      let lines := Utf8.encode (String.join (heavy.map (lineOf time)))
      match FileM.append path lines machine.disk.files with
      | .ok _ files => { machine with disk := { machine.disk with files } }
      | .error _ _ => machine

/-- Lets a store work, and logs what it tells; the outcome, and the machine after it. -/
def work {α : Type} (machine : Machine) (time : String) (store : Store) (action : StoreM α) :
    Except StoreError α × Machine :=
  match action { disk := machine.disk, store } with
  | .ok value after =>
      (.ok value, { machine with disk := after.disk }.record time after.journal)
  | .error cause after =>
      (.error cause, { machine with disk := after.disk }.record time after.journal)

end Machine

end Septet.CommandLine
