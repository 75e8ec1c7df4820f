import Septet.Proofs.Files.Directories
import Septet.Proofs.Store.Catalogue
import Septet.Proofs.Store.Sharing

/-!
# Stores that are opened for one action

A store that works on a disk for a moment opens its database, does one thing and closes
the database again.  A disk keeps a catalogue for the stores with a path when such a store
can be opened (`Disk.Ready`) and its database has the fields of the catalogue
(`Disk.Keeps`).

With the options that it has by default, a store is opened when its directory can be made
and its database is free (`Store.openStore_plain`).  Then what it does while it is open
is what an open store does that keeps the catalogue, and after that the disk keeps the
catalogue that this has come to, and the database is free again (`Disk.Keeps.visit`).
-/

set_option autoImplicit false

namespace Septet

/-! ## Disks that stores can be opened on -/

/-- The store with a path and no options of its own. -/
def Store.plain (path : Path) : Store :=
  .ofOptions path .default

/-- Where the database of the stores with a path is. -/
def Disk.locationOf (disk : Disk) (path : Path) : Location :=
  (Store.plain path).databasePath.destination disk.files.workingDirectory

/-- The directory of the database of the stores with a path can be made, which leads to some files,
and nobody holds the database. -/
structure Disk.Ready (disk : Disk) (path : Path) (files : FileSystem) : Prop where
  made : FileM.makeDirectories (Store.plain path).databasePath disk.files = .ok () files
  free : ∀ vault, disk.vault? (disk.locationOf path) = some vault → vault.holder = none

/-- The database of the stores with a path has the fields of a catalogue. -/
structure Disk.Keeps (disk : Disk) (path : Path) (hash : NameHash) (bound : Nat)
    (catalogue : Catalogue) : Prop where
  /-- The numbers that are in use are below the bound. -/
  regular : (disk.contents (disk.locationOf path)).Regular hash bound
  finds : ∀ name, (disk.contents (disk.locationOf path)).fieldsOf hash name = .ok (catalogue name)

namespace Disk

variable {disk : Disk} {path : Path} {files : FileSystem}

/-- Nothing is held after it has been let go. -/
theorem holder_of_release {opening : Opening} {vault : Vault}
    (there : (disk.release opening).vault? opening.location = some vault) : vault.holder = none := by
  unfold release at there
  cases known : disk.vault? opening.location with
  | none =>
      rw [known] at there
      dsimp only at there
      cases known.symm.trans there
  | some held =>
      rw [known] at there
      dsimp only at there
      rw [vault?_setVault] at there
      cases there
      rfl

theorem files_release (opening : Opening) : (disk.release opening).files = disk.files := by
  unfold release
  cases disk.vault? opening.location <;> rfl

/-- A database that nobody holds is opened where a directory is, if it is to be made if it is
missing and not to be refused if it is there. -/
theorem openAt_of_free {location : Location} (directory : disk.files.node? location = some .directory)
    (free : ∀ vault, disk.vault? location = some vault → vault.holder = none) :
    disk.openAt location true false = .ok (disk.hold location (disk.contents location)) := by
  rw [openAt, directory, Disk.contents]
  cases there : disk.vault? location with
  | none => rfl
  | some vault =>
      simp only [free vault there, Option.isSome_none, Bool.false_eq_true, if_false,
        Option.elim_some]

end Disk

namespace Store

/-! ## Opening -/

variable {disk : Disk} {path : Path} {files : FileSystem}

/-- A database is opened when it takes its options, is where a path leads, and can be held. -/
theorem openDatabase_ok {session : Session} {given : Table} {location : Location}
    {opening : Opening} {held : Disk}
    (arguments : session.store.options.databaseArguments = .ok given)
    (fits : Options.wordFault? given = none)
    (located : session.disk.files.locate session.store.databasePath = .ok location)
    (opened : session.disk.openAt location
      (session.store.options.free .createIfMissing).isTruthy
      (session.store.options.free .errorIfExists).isTruthy = .ok (opening, held)) :
    openDatabase session = .ok () { session with
      disk := held
      store := { session.store with opening := some opening } } := by
  have looked : withFiles (FileM.ask fun files => files.locate session.store.databasePath) session =
      .ok location session := by
    simp only [withFiles, FileM.ask, located]
  rw [openDatabase, EStateM.get_bind]
  dsimp only
  rw [arguments]
  dsimp only
  rw [fits]
  refine (EStateM.bind_ok looked).trans ?_
  rw [opened]
  rfl

/-- The database takes the options that a store has by default. -/
theorem exists_defaultArguments :
    ∃ given, Options.default.databaseArguments = .ok given ∧ Options.wordFault? given = none :=
  ⟨_, rfl, by decide +kernel⟩

/-- **A store without options of its own is opened** when its directory can be made and nobody holds
its database. -/
theorem openStore_plain (ready : disk.Ready path files) :
    ∃ opening after, openStore { disk, store := plain path } = .ok () after ∧
      Session.Opened { disk, store := plain path } opening after ∧ after.disk.files = files := by
  have prepared : prepareDirectory { disk, store := plain path } =
      .ok () { disk := { disk with files }, store := plain path } := by
    change withFiles (FileM.makeDirectories (plain path).databasePath)
      { disk, store := plain path } = _
    rw [withFiles]
    dsimp only
    rw [ready.made]
  have kept := preserves_prepareDirectory { disk, store := plain path }
  rw [prepared] at kept
  dsimp only at kept
  obtain ⟨location, located, directory⟩ :=
    FileSystem.hasDirectory_iff.mp (FileM.hasDirectory_of_makeDirectories ready.made)
  have same : location = disk.locationOf path := by
    have start : files.workingDirectory = disk.files.workingDirectory :=
      Session.workingDirectory_of_bare_eq kept
    rw [FileSystem.locate_eq_destination located, start, Disk.locationOf]
  obtain ⟨given, arguments, fits⟩ := exists_defaultArguments
  obtain ⟨opening, held, free, filesHeld⟩ : ∃ opening held,
      Disk.openAt { disk with files } location true false = .ok (opening, held) ∧
        held.files = files :=
    ⟨_, _, Disk.openAt_of_free directory (same ▸ ready.free), rfl⟩
  have taken : openDatabase { disk := { disk with files }, store := plain path } =
      .ok () { disk := held, store := { plain path with opening := some opening } } :=
    openDatabase_ok arguments fits located free
  have told := tell_of_logger { disk := held, store := { plain path with opening := some opening } }
    (rfl : (plain path).logger = .logger defaultLogger) .info
    ("Opened record store: " ++ (plain path).databasePath.text)
  refine ⟨opening, _, (EStateM.bind_ok prepared).trans ((EStateM.bind_ok taken).trans told), ?_,
    filesHeld⟩
  rcases openDatabase_cases { disk := { disk with files }, store := plain path } with
    ⟨other, after, done, opened, _⟩ | ⟨cause, failed⟩
  · cases taken.symm.trans done
    have opening : other = opening := (Option.some.inj (congrArg Store.opening opened.store)).symm
    subst opening
    exact (opened.of_bare_eq kept).told _
  · cases taken.symm.trans failed

section Acting

variable {α : Type} {action : StoreM α} {session opened acted : Session} {value : α}

/-- A store does what it has been opened for, and is closed. -/
theorem whileOpen_ok {opening : Opening} (opens : openStore session = .ok () opened)
    (acts : action opened = .ok value acted) (still : acted.store.opening = some opening)
    (told : ∃ logger, acted.store.logger = .logger logger) :
    ∃ closed, whileOpen action session = .ok value closed ∧
      closed.disk = acted.disk.release opening := by
  obtain ⟨journal, closes⟩ := closeStore_run still told
  refine ⟨{
    disk := acted.disk.release opening
    store := { acted.store with opening := none }
    journal }, (EStateM.bind_ok opens).trans ?_, rfl⟩
  have tried : (tryCatch action fun cause => do
      closeStore
      throw cause) opened = .ok value acted := by
    simp only [MonadExceptOf.tryCatch, tryCatchThe, MonadExcept.tryCatch, EStateM.tryCatch, acts]
  exact (EStateM.bind_ok tried).trans (EStateM.bind_ok closes)

end Acting

end Store

/-! ## Visits -/

section Visits

variable {α : Type} {action : StoreM α} {value : α} {disk : Disk} {path : Path}
  {files : FileSystem} {hash : NameHash} {bound later : Nat} {catalogue left : Catalogue}
  {quiet : Prop}

/-- **A visit does what an open store does that keeps the catalogue**, and leaves the database free
and in the directory that has been made.  If the open store changes nothing, neither does the
visit. -/
theorem Disk.Keeps.visit (keeps : disk.Keeps path hash bound catalogue)
    (ready : disk.Ready path files)
    (acts : ∀ {session opening}, session.Keeps opening hash bound catalogue →
      session.store.options = .default → ∃ acted, action session = .ok value acted ∧
        acted.Keeps opening hash later left ∧ acted.fixed = session.fixed ∧
          (quiet → acted.database opening = session.database opening)) :
    ∃ closed, Store.whileOpen action { disk, store := .plain path } = .ok value closed ∧
      closed.disk.files = files ∧ closed.disk.Ready path files ∧
      closed.disk.Keeps path hash later left ∧
      (quiet → closed.disk.contents (closed.disk.locationOf path) =
        disk.contents (disk.locationOf path)) := by
  obtain ⟨opening, opened, opens, holds, filesOpened⟩ := Store.openStore_plain ready
  have location : opening.location = disk.locationOf path := holds.location
  have contents : opened.database opening = disk.contents (disk.locationOf path) := by
    rw [Session.database, holds.contents, location]
  have kept : opened.Keeps opening hash bound catalogue :=
    { ready :=
        { opened := by rw [holds.store]
          held := holds.held
          told := ⟨Store.defaultLogger, by rw [holds.store]; rfl⟩ }
      regular := contents ▸ keeps.regular
      finds := contents ▸ keeps.finds }
  obtain ⟨acted, done, keptThen, fixed, still⟩ := acts kept (by rw [holds.store]; rfl)
  obtain ⟨closed, run, released⟩ :=
    Store.whileOpen_ok opens done keptThen.ready.opened keptThen.ready.told
  have filesClosed : closed.disk.files = files := by
    have filesActed : acted.disk.files = opened.disk.files := congrArg Prod.fst fixed
    rw [released, Disk.files_release, filesActed, filesOpened]
  have place : closed.disk.locationOf path = opening.location := by
    have start : opened.disk.files.workingDirectory = disk.files.workingDirectory :=
      holds.workingDirectory
    rw [location, Disk.locationOf, Disk.locationOf, filesClosed, ← start, filesOpened]
  have same : closed.disk.contents (closed.disk.locationOf path) = acted.database opening := by
    rw [place, released, Disk.contents_release, Session.database]
  refine ⟨closed, run, filesClosed, ⟨?_, fun vault there => ?_⟩, ⟨?_, ?_⟩, fun silent => ?_⟩
  · rw [filesClosed]
    exact FileM.makeDirectories_of_hasDirectory (FileM.hasDirectory_of_makeDirectories ready.made)
  · rw [place, released] at there
    exact Disk.holder_of_release there
  · exact same ▸ keptThen.regular
  · exact same ▸ keptThen.finds
  · rw [same, still silent, contents]

end Visits

/-! ## What can be done in a visit -/

namespace Session.Keeps

variable {session : Session} {opening : Opening} {hash : NameHash} {bound : Nat}
  {catalogue : Catalogue} (keeps : session.Keeps opening hash bound catalogue)
include keeps

theorem put_fixed {record : Record}
    (within : session.store.options.maxBatchSize.lessThan 1 = false) (fits : record.Fits)
    (enough : bound + 1 ≤ 2 ^ 64) :
    ∃ acted, Store.put hash record session = .ok () acted ∧
      acted.Keeps opening hash (bound + 1)
        (Function.update catalogue record.name (some record.fields)) ∧
      acted.fixed = session.fixed := by
  have one : session.store.options.maxBatchSize.lessThan ([record].length : Int) = false := within
  obtain ⟨acted, done, kept, _⟩ := keeps.putMany one (List.forall_mem_singleton.mpr fits) enough
  have fixed := (Store.preserves_putMany hash [record]).left session
  rw [StoreM.left_ok done] at fixed
  exact ⟨acted, done, kept, fixed⟩

theorem fieldsOf_fixed (name : String) :
    Store.fieldsOf hash name session = .ok (catalogue name) session := by
  obtain ⟨result, searched, known⟩ := keeps.exists_find name
  rw [Store.fieldsOf_run keeps.ready, searched, ← known]

/-- A deletion changes nothing where the name is not there. -/
theorem delete_fixed (name : String) :
    ∃ acted, Store.delete hash name session = .ok (catalogue name).isSome acted ∧
      acted.Keeps opening hash bound (Function.update catalogue name none) ∧
      acted.fixed = session.fixed ∧
      (catalogue name = none → acted.database opening = session.database opening) := by
  obtain ⟨acted, done, kept, _⟩ := keeps.delete name
  have fixed := (Store.preserves_delete hash name).left session
  rw [StoreM.left_ok done] at fixed
  refine ⟨acted, done, kept, fixed, fun absent => ?_⟩
  obtain ⟨result, searched, known⟩ := keeps.exists_find name
  rw [absent, Option.map_eq_none_iff] at known
  have nothing : (session.database opening).delete hash name =
      .ok (false, session.database opening) := by
    rw [Database.delete, searched, known]
    rfl
  obtain ⟨same, again, _, holds, _⟩ := Store.delete_ok keeps.ready nothing
  rw [absent] at done
  cases done.symm.trans again
  exact holds

end Session.Keeps

end Septet
