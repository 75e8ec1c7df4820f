import Septet.Database.Batch
import Septet.Database.Listing
import Septet.Options.Word
import Septet.Store.Disk
import Septet.Store.Journal

/-!
# Stores

A store is a handle on the database in a directory below the path of the store.  It
has options of its own and a logger, which is chosen when the handle is made.  What
it is asked for needs an open database; an open database belongs to the handle that
opened it until that handle closes it.

An operation of a store works on a session: the disk, the handle, and the journal of
what the handle tells its logger.  It may fail, and the session is there after a
failure too, with the directories that were made and the messages that were told
before it.
-/

namespace Septet

set_option autoImplicit false

/-! ## Causes of failure -/

/-- Why a store could not do what it was asked for. -/
inductive StoreError where
  /-- The store has not been opened. -/
  | notOpen
  /-- The opening that a listing reads from is over. -/
  | listingClosed
  /-- The directory of the database is missing and not to be made. -/
  | directoryMissing (path : String)
  /-- A directory could not be made or looked at. -/
  | file (cause : FileError)
  /-- The options cannot be passed on to the database. -/
  | option (cause : OptionError)
  /-- A number among the options does not fit in the word that the database keeps it in. -/
  | word (cause : WordError)
  /-- The database could not be opened. -/
  | database (cause : OpenError)
  /-- A pair holds no record, or a key no number. -/
  | record (cause : RecordError)
  /-- A batch could not be written. -/
  | batch (cause : BatchError)
  /-- What was given as a logger cannot be told messages. -/
  | noLogger (kind method : String)
  deriving Repr

def StoreError.message : StoreError → String
  | notOpen => "Database not opened. Use context manager or call open()."
  | listingClosed => "Database or iterator is closed"
  | directoryMissing path => "Database directory not found: " ++ path
  | file cause => cause.message
  | option cause => cause.message
  | word cause => cause.message
  | database cause => cause.message
  | record cause => cause.message
  | batch cause => cause.message
  | noLogger kind method => s!"'{kind}' object has no attribute '{method}'"

/-! ## Stores and sessions -/

/-- A handle on the database of a store. -/
structure Store where
  path : Path
  options : Options
  /-- What is told messages. -/
  logger : Value
  /-- The opening of the database, while the store is open. -/
  opening : Option Opening := none

/-- A store at work. -/
structure Session where
  disk : Disk
  store : Store
  journal : Journal := []

/-- An operation of a store. -/
abbrev StoreM := EStateM StoreError Session

namespace Store

/-- The name of the directory with what belongs to a store. -/
def directoryName : String := ".vlqdb"

/-- The name of the directory of the database. -/
def databaseName : String := "database"

/-- The name of the file with the settings. -/
def settingsName : String := "settings.toml"

/-- The logger of a store whose options name none. -/
def defaultLogger : Logger := { name := "vlqdb.store" }

def ofOptions (path : Path) (options : Options) : Store where
  path
  options
  logger := if (options.free .logger).isTruthy then options.free .logger else .logger defaultLogger

def databasePath (store : Store) : Path :=
  store.path.append [directoryName, databaseName]

/-- The path of the settings of the store with a path. -/
def settingsPath (path : Path) : Path :=
  path.append [directoryName, settingsName]

/-! ## Opening and closing -/

def tell (level : Level) (text : String) : StoreM Unit := do
  match (← get).store.logger with
  | .logger logger =>
      let message : Message := { logger := logger.name, level, text }
      modify fun session => { session with journal := session.journal ++ [message] }
  | other => throw (.noLogger other.kind level.method)

def withFiles {α : Type} (change : FileM α) : StoreM α := fun session =>
  match change session.disk.files with
  | .ok value files => .ok value { session with disk := { session.disk with files } }
  | .error cause files => .error (.file cause) { session with disk := { session.disk with files } }

/-- Makes sure that the directory of the database is there, or that it is to be made and is made. -/
def prepareDirectory : StoreM Unit := do
  let store := (← get).store
  if (store.options.free .createIfMissing).isTruthy then
    withFiles (FileM.makeDirectories store.databasePath)
  else
    match ← withFiles (FileM.ask fun files => files.find store.databasePath) with
    | some _ => pure ()
    | none => throw (.directoryMissing store.databasePath.text)

/-- Opens the database at the end of the store's path. -/
def openDatabase : StoreM Unit := do
  let session ← get
  let options := session.store.options
  match options.databaseArguments with
  | .error cause => throw (.option cause)
  | .ok arguments =>
      match Options.wordFault? arguments with
      | some cause => throw (.word cause)
      | none => pure ()
  let location ← withFiles (FileM.ask fun files => files.locate session.store.databasePath)
  match session.disk.openAt location (options.free .createIfMissing).isTruthy
      (options.free .errorIfExists).isTruthy with
  | .error cause => throw (.database cause)
  | .ok (opening, disk) =>
      set { session with disk, store := { session.store with opening := some opening } }

def openStore : StoreM Unit := do
  prepareDirectory
  openDatabase
  tell .info ("Opened record store: " ++ (← get).store.databasePath.text)

def closeStore : StoreM Unit := do
  let session ← get
  match session.store.opening with
  | none => pure ()
  | some opening =>
      set { session with
        disk := session.disk.release opening
        store := { session.store with opening := none } }
      tell .info ("Closed record store: " ++ session.store.databasePath.text)

/-- Opens the store, does something and closes the store again, also after a failure. -/
def whileOpen {α : Type} (action : StoreM α) : StoreM α := do
  openStore
  let value ← tryCatch action fun cause => do
    closeStore
    throw cause
  closeStore
  pure value

/-! ## Records -/

def requireOpening : StoreM Opening := do
  match (← get).store.opening with
  | some opening => pure opening
  | none => throw .notOpen

/-- The pairs of the database of the store. -/
def contents : StoreM Database := do
  let opening ← requireOpening
  pure ((← get).disk.contents opening.location)

/-- Puts other pairs in place of those of the database of the store. -/
def setContents (contents : Database) : StoreM Unit := do
  let opening ← requireOpening
  modify fun session => { session with disk := session.disk.setContents opening.location contents }

/-- The fields of the record of a name. -/
def fieldsOf (hash : NameHash) (name : String) : StoreM (Option (List Bytes)) := do
  match (← contents).find hash name with
  | .ok found => pure (found.map Found.fields)
  | .error cause => throw (.record cause)

/-- Writes records at once or not at all. -/
def putMany (hash : NameHash) (records : List Record) : StoreM Unit := do
  let limit := (← get).store.options.maxBatchSize
  match (← contents).putMany hash limit records with
  | .error cause => throw (.batch cause)
  | .ok written =>
      setContents written
      tell .debug s!"Wrote {records.length} records"

def put (hash : NameHash) (record : Record) : StoreM Unit :=
  putMany hash [record]

/-- Removes the record of a name; whether there was one. -/
def delete (hash : NameHash) (name : String) : StoreM Bool := do
  match (← contents).delete hash name with
  | .error cause => throw (.record cause)
  | .ok (existed, left) =>
      setContents left
      pure existed

def list (aspect : Aspect) : StoreM Listing := do
  pure ((← contents).list aspect)

end Store

end Septet
