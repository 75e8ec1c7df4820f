import Septet.Database.Basic
import Septet.Files.System

/-!
# Databases on disk

A database lives in a directory and outlives those who use it.  It is opened before
it is used, and while it is open nobody else can open it; every opening has a number
of its own.  Closing a database releases it and leaves its pairs as they are.

A directory alone is no database: the first opening makes one of it, if it is told
to, and may be told to refuse one that is there.
-/

namespace Septet

set_option autoImplicit false

/-- A database in a directory. -/
structure Vault where
  contents : Database
  /-- The number of the opening that holds it, if one does. -/
  holder : Option Nat

/-- Files, and the databases in directories. -/
structure Disk where
  files : FileSystem
  /-- The databases by the locations of their directories; the first entry of a location counts. -/
  vaults : List (Location × Vault) := []
  /-- How many times a database has been opened. -/
  openings : Nat := 0

/-- An opening of a database. -/
structure Opening where
  number : Nat
  location : Location
  deriving DecidableEq, Repr

/-- Why the database in a directory could not be opened. -/
inductive OpenError where
  /-- Another opening holds it, or a file stands in place of its directory. -/
  | held
  /-- It is not to be made, or not to be there. -/
  | refused
  deriving DecidableEq, Repr

def OpenError.message : OpenError → String
  | held => "the database is in use"
  | refused => "the database is not as the options want it to be"

namespace Disk

def vault? (disk : Disk) (location : Location) : Option Vault :=
  disk.vaults.lookup location

/-- The disk with another database at a location. -/
def setVault (disk : Disk) (location : Location) (vault : Vault) : Disk :=
  { disk with
    vaults := (location, vault) :: disk.vaults.filter fun entry => entry.1 != location }

/-- The pairs of the database at a location. -/
def contents (disk : Disk) (location : Location) : Database :=
  (disk.vault? location).elim .empty Vault.contents

/-- The disk with other pairs in the database at a location. -/
def setContents (disk : Disk) (location : Location) (contents : Database) : Disk :=
  match disk.vault? location with
  | none => disk
  | some vault => disk.setVault location { vault with contents }

/-- Whether an opening still holds its database. -/
def isHeldBy (disk : Disk) (opening : Opening) : Bool :=
  match disk.vault? opening.location with
  | none => false
  | some vault => vault.holder == some opening.number

/-- Lets the next opening hold the database at a location, with the given pairs. -/
def hold (disk : Disk) (location : Location) (contents : Database) : Opening × Disk :=
  let opened := disk.setVault location { contents, holder := some disk.openings }
  ({ number := disk.openings, location }, { opened with openings := disk.openings + 1 })

def openAt (disk : Disk) (location : Location) (create refuse : Bool) :
    Except OpenError (Opening × Disk) :=
  match disk.files.node? location, disk.vault? location with
  | some (.file _), _ => .error .held
  | _, none => if create then .ok (disk.hold location .empty) else .error .refused
  | _, some vault =>
      if vault.holder.isSome then .error .held
      else if refuse then .error .refused
      else .ok (disk.hold location vault.contents)

/-- Releases the database of an opening. -/
def release (disk : Disk) (opening : Opening) : Disk :=
  match disk.vault? opening.location with
  | none => disk
  | some vault => disk.setVault opening.location { vault with holder := none }

end Disk

end Septet
