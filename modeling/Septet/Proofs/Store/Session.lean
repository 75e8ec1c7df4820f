import Septet.Proofs.Database.OneByOne
import Septet.Proofs.Running
import Septet.Store.Basic

/-!
# What an open store does

A session is ready when its store has an opening, the opening holds its database, and
the store has a logger to tell messages to; a store that has been opened without a
failure is ready (`ready_of_openStore`).  What a ready store is asked for comes down
to what its database answers (`fieldsOf_run`, `putMany_ok`, `putMany_error`,
`delete_ok`, `delete_error`, `list_run`), and a store that was ready stays so.  A
failure of any of these leaves the whole session as it was.
-/

set_option autoImplicit false

namespace Septet

/-! ## Databases on disk -/

namespace Disk

variable (disk : Disk) (location : Location)

theorem vault?_setVault (vault : Vault) :
    (disk.setVault location vault).vault? location = some vault :=
  List.lookup_cons_self

/-- Other pairs can be put in the place of those of a database that is there. -/
theorem contents_setContents {vault : Vault} (there : disk.vault? location = some vault)
    (contents : Database) : (disk.setContents location contents).contents location = contents := by
  simp only [Disk.contents, setContents, there, vault?_setVault, Option.elim_some]

theorem isHeldBy_setContents {opening : Opening} (held : disk.isHeldBy opening = true)
    (contents : Database) :
    (disk.setContents opening.location contents).isHeldBy opening = true := by
  unfold isHeldBy at held ⊢
  cases there : disk.vault? opening.location with
  | none => simp [there] at held
  | some vault => simpa only [setContents, there, vault?_setVault] using held

theorem exists_vault_of_isHeldBy {opening : Opening} (held : disk.isHeldBy opening = true) :
    ∃ vault, disk.vault? opening.location = some vault := by
  unfold isHeldBy at held
  cases there : disk.vault? opening.location with
  | none => simp [there] at held
  | some vault => exact ⟨vault, rfl⟩

/-- An opening that has been made holds its database. -/
theorem isHeldBy_of_openAt {disk after : Disk} {location : Location} {create refuse : Bool}
    {opening : Opening}
    (opened : disk.openAt location create refuse = .ok (opening, after)) :
    after.isHeldBy opening = true := by
  have held : ∀ contents, (disk.hold location contents).2.isHeldBy
      (disk.hold location contents).1 = true := by
    intro contents
    have there := disk.vault?_setVault location { contents, holder := some disk.openings }
    simp only [Disk.vault?, setVault] at there
    simp only [isHeldBy, hold, Disk.vault?, setVault, there, BEq.rfl]
  unfold openAt at opened
  split at opened
  · cases opened
  · split at opened
    · cases opened
      exact held _
    · cases opened
  · split at opened
    · cases opened
    · split at opened
      · cases opened
      · cases opened
        exact held _

end Disk

/-! ## Ready sessions -/

/-- A session whose store is open and can tell what it does. -/
structure Session.Ready (session : Session) (opening : Opening) : Prop where
  opened : session.store.opening = some opening
  held : session.disk.isHeldBy opening = true
  told : ∃ logger, session.store.logger = .logger logger

/-- The database that the store of a session has open. -/
def Session.database (session : Session) (opening : Opening) : Database :=
  session.disk.contents opening.location

/-- A digest, for hashes under which all names are alike. -/
def Digest.zeros : Digest where
  bytes := List.replicate 16 0
  length_bytes := List.length_replicate

/-- A session of a store at the root that has a database open. -/
def Session.holding (database : Database) : Session where
  disk :=
    { files := { workingDirectory := [], nodes := [] }
      vaults := [([], { contents := database, holder := some 0 })]
      openings := 1 }
  store :=
    { Store.ofOptions { start := .root, names := [] } Options.default with
      opening := some { number := 0, location := [] } }

/-- Any database may be the one of a ready session. -/
theorem Session.ready_holding (database : Database) :
    (Session.holding database).Ready { number := 0, location := [] } where
  opened := rfl
  held := rfl
  told := ⟨Store.defaultLogger, rfl⟩

theorem Session.database_holding (database : Database) :
    (Session.holding database).database { number := 0, location := [] } = database := rfl

/-! ## Running an operation -/

/-- What an operation of a store answers, without what it leaves. -/
def StoreM.outcome {α : Type} (action : StoreM α) (session : Session) : Except StoreError α :=
  match action session with
  | .ok value _ => .ok value
  | .error cause _ => .error cause

/-- What an operation of a store leaves, whatever it answers. -/
def StoreM.left {α : Type} (action : StoreM α) (session : Session) : Session :=
  match action session with
  | .ok _ after => after
  | .error _ after => after

section Running

variable {α : Type} {action : StoreM α} {value : α} {cause : StoreError} {session after : Session}

theorem StoreM.outcome_ok (run : action session = .ok value after) :
    action.outcome session = .ok value := by
  rw [outcome, run]

theorem StoreM.outcome_error (run : action session = .error cause after) :
    action.outcome session = .error cause := by
  rw [outcome, run]

theorem StoreM.left_ok (run : action session = .ok value after) : action.left session = after := by
  rw [left, run]

theorem StoreM.left_error (run : action session = .error cause after) :
    action.left session = after := by
  rw [left, run]

end Running

/-! ## Opening a store -/

namespace Store

/-- Only a logger can be told a message, and then only the journal changes. -/
theorem logger_of_tell {level : Level} {text : String} {session after : Session}
    (told : tell level text session = .ok () after) :
    ∃ logger, session.store.logger = .logger logger ∧
      after = { session with
        journal := session.journal ++ [{ logger := logger.name, level, text }] } := by
  rw [tell, EStateM.get_bind] at told
  cases known : session.store.logger with
  | logger logger =>
      rw [known] at told
      cases told
      exact ⟨logger, rfl, rfl⟩
  | _ =>
      rw [known] at told
      cases told

/-- The database is opened for the store, and the opening holds it. -/
theorem opening_of_openDatabase {session after : Session}
    (opened : openDatabase session = .ok () after) :
    ∃ opening, after.store.opening = some opening ∧ after.disk.isHeldBy opening = true := by
  unfold openDatabase at opened
  obtain ⟨seen, first, looked, opened⟩ := EStateM.bind_eq_ok opened
  dsimp only at opened
  cases arguments : seen.store.options.databaseArguments with
  | error cause =>
      rw [arguments] at opened
      cases opened
  | ok given =>
      rw [arguments] at opened
      dsimp only at opened
      cases fault : Options.wordFault? given with
      | some cause =>
          rw [fault] at opened
          cases opened
      | none =>
          rw [fault] at opened
          obtain ⟨location, third, _, opened⟩ := EStateM.bind_eq_ok opened
          cases result : seen.disk.openAt location
              (seen.store.options.free .createIfMissing).isTruthy
              (seen.store.options.free .errorIfExists).isTruthy with
          | error cause =>
              rw [result] at opened
              cases opened
          | ok pair =>
              obtain ⟨opening, disk⟩ := pair
              rw [result] at opened
              cases opened
              exact ⟨opening, rfl, Disk.isHeldBy_of_openAt result⟩

/-- **A store that has been opened without a failure is ready.** -/
theorem ready_of_openStore {session after : Session} (opened : openStore session = .ok () after) :
    ∃ opening, after.Ready opening := by
  unfold openStore at opened
  obtain ⟨_, prepared, _, opened⟩ := EStateM.bind_eq_ok opened
  obtain ⟨_, between, database, told⟩ := EStateM.bind_eq_ok opened
  obtain ⟨opening, there, held⟩ := opening_of_openDatabase database
  obtain ⟨seen, same, looked, told⟩ := EStateM.bind_eq_ok told
  cases looked
  obtain ⟨logger, known, rfl⟩ := logger_of_tell told
  exact ⟨opening, there, held, logger, known⟩

/-! ## What a ready store holds -/

section Ready

variable {session : Session} {opening : Opening} (ready : session.Ready opening)
include ready

theorem requireOpening_run : requireOpening session = .ok opening session := by
  rw [requireOpening, EStateM.get_bind, ready.opened]
  rfl

theorem contents_run : contents session = .ok (session.database opening) session := by
  rw [contents, EStateM.bind_ok (requireOpening_run ready), EStateM.get_bind]
  rfl

/-- The session after other pairs have been put in the place of those of the database. -/
theorem setContents_run (contents : Database) :
    ∃ after, setContents contents session = .ok () after ∧ after.Ready opening ∧
      after.database opening = contents ∧ after.store = session.store ∧
        after.journal = session.journal := by
  obtain ⟨vault, there⟩ := session.disk.exists_vault_of_isHeldBy ready.held
  refine ⟨{ session with disk := session.disk.setContents opening.location contents }, ?_,
    ⟨ready.opened, session.disk.isHeldBy_setContents ready.held contents, ready.told⟩,
    session.disk.contents_setContents _ there contents, rfl, rfl⟩
  rw [setContents, EStateM.bind_ok (requireOpening_run ready)]
  rfl

/-- The logger is told a message, and nothing else happens. -/
theorem tell_run (level : Level) (text : String) :
    ∃ after, tell level text session = .ok () after ∧ after.Ready opening ∧
      after.disk = session.disk ∧ after.store = session.store := by
  obtain ⟨logger, told⟩ := ready.told
  refine ⟨{ session with journal := session.journal ++
      [{ logger := logger.name, level, text }] }, ?_, ⟨ready.opened, ready.held, logger, told⟩,
    rfl, rfl⟩
  rw [tell, EStateM.get_bind, told]
  rfl

/-! ## Looking records up -/

/-- The fields of the record of a name are those that are found in the database. -/
theorem fieldsOf_run (hash : NameHash) (name : String) :
    fieldsOf hash name session =
      match (session.database opening).find hash name with
      | .ok found => .ok (found.map Found.fields) session
      | .error cause => .error (.record cause) session := by
  rw [fieldsOf, EStateM.bind_ok (contents_run ready)]
  cases (session.database opening).find hash name <;> rfl

theorem list_run (aspect : Aspect) :
    list aspect session = .ok ((session.database opening).list aspect) session := by
  rw [list, EStateM.bind_ok (contents_run ready)]
  rfl

/-! ## Writing and erasing -/

variable {hash : NameHash}

theorem putMany_ok {records : List Record} {written : Database}
    (taken : (session.database opening).putMany hash session.store.options.maxBatchSize records =
      .ok written) :
    ∃ after, putMany hash records session = .ok () after ∧ after.Ready opening ∧
      after.database opening = written ∧ after.store = session.store := by
  obtain ⟨changed, set, readyThen, holds, store, _⟩ := setContents_run ready written
  obtain ⟨after, told, readyAfter, disk, storeAfter⟩ :=
    tell_run readyThen .debug s!"Wrote {records.length} records"
  refine ⟨after, ?_, readyAfter, ?_, storeAfter.trans store⟩
  · rw [putMany, EStateM.get_bind, EStateM.bind_ok (contents_run ready), taken]
    exact (EStateM.bind_ok set).trans told
  · rw [Session.database, disk]
    exact holds

theorem putMany_error {records : List Record} {cause : BatchError}
    (refused : (session.database opening).putMany hash session.store.options.maxBatchSize records =
      .error cause) :
    putMany hash records session = .error (.batch cause) session := by
  rw [putMany, EStateM.get_bind, EStateM.bind_ok (contents_run ready), refused]
  rfl

theorem delete_ok {name : String} {existed : Bool} {left : Database}
    (erased : (session.database opening).delete hash name = .ok (existed, left)) :
    ∃ after, delete hash name session = .ok existed after ∧ after.Ready opening ∧
      after.database opening = left ∧ after.store = session.store := by
  obtain ⟨after, set, readyAfter, holds, store, _⟩ := setContents_run ready left
  refine ⟨after, ?_, readyAfter, holds, store⟩
  rw [delete, EStateM.bind_ok (contents_run ready), erased]
  exact EStateM.bind_ok set

theorem delete_error {name : String} {cause : RecordError}
    (refused : (session.database opening).delete hash name = .error cause) :
    delete hash name session = .error (.record cause) session := by
  rw [delete, EStateM.bind_ok (contents_run ready), refused]
  rfl

end Ready

end Store

end Septet
