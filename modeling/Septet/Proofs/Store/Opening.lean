import Septet.Proofs.Store.Session

/-!
# Opening and closing

A path leads to one location only, whatever directories are made on the way
(`locate_eq_destination`), so all stores with a path share one database.  A store that
is opened makes directories first and takes its database then: either it holds the
database, which was free before and has the pairs that it had (`Session.Opened`), or it
fails and all is as it was, but for the directories (`openStore_cases`).  A store that
is closed lets its database go (`closeStore_run`), and one that is not open stays as it
is (`closeStore_of_closed`).
-/

set_option autoImplicit false

namespace Septet

/-! ## Actions that keep something -/

section Preserving

variable {ε σ τ α β : Type} {quantity : σ → τ}

/-- An action leaves a part of the state as it is, whether it fails or not. -/
def Preserves (quantity : σ → τ) (action : EStateM ε σ α) : Prop :=
  ∀ state, match action state with
    | .ok _ after => quantity after = quantity state
    | .error _ after => quantity after = quantity state

theorem Preserves.pure (value : α) : Preserves quantity (pure value : EStateM ε σ α) :=
  fun _ => rfl

theorem Preserves.throw (cause : ε) : Preserves quantity (throw cause : EStateM ε σ α) :=
  fun _ => rfl

theorem Preserves.get : Preserves quantity (get : EStateM ε σ σ) :=
  fun _ => rfl

theorem Preserves.bind {action : EStateM ε σ α} {next : α → EStateM ε σ β}
    (first : Preserves quantity action) (second : ∀ value, Preserves quantity (next value)) :
    Preserves quantity (action >>= next) := by
  intro state
  have here := first state
  cases run : action state with
  | error cause after =>
      rw [run] at here
      rw [EStateM.bind_error run]
      exact here
  | ok value middle =>
      rw [run] at here
      have later := second value middle
      dsimp only at here
      rw [EStateM.bind_ok run, ← here]
      exact later

theorem Preserves.tryCatch {action : EStateM ε σ α} {handle : ε → EStateM ε σ α}
    (first : Preserves quantity action) (second : ∀ cause, Preserves quantity (handle cause)) :
    Preserves quantity (tryCatch action handle) := by
  intro state
  have here := first state
  cases run : action state with
  | ok value after =>
      rw [run] at here
      rw [EStateM.tryCatch_ok run]
      exact here
  | error cause middle =>
      rw [run] at here
      have later := second cause middle
      dsimp only at here
      rw [EStateM.tryCatch_error run, ← here]
      exact later

end Preserving

/-! ## Where paths lead -/

/-- Where names lead from a location, if they lead anywhere. -/
def leadFrom (location : Location) (names : List String) : Location :=
  names.foldl (fun location name => if name = ".." then location.dropLast else location ++ [name])
    location

/-- The location that a path leads to, if it leads anywhere. -/
def Path.destination (path : Path) (workingDirectory : Location) : Location :=
  leadFrom (match path.start with
    | .workingDirectory => workingDirectory
    | _ => []) path.names

namespace FileSystem

variable {files : FileSystem}

theorem walk_eq_leadFrom (names : List String) : ∀ {location reached : Location},
    files.walk location names = .ok reached → reached = leadFrom location names := by
  induction names with
  | nil =>
      intro location reached walked
      cases walked
      rfl
  | cons name rest ih =>
      intro location reached walked
      rw [walk] at walked
      rw [leadFrom, List.foldl_cons, ← leadFrom]
      split at walked
      · cases walked
      · cases walked
      · split at walked
        · next back =>
            rw [if_pos back]
            exact ih walked
        · next onwards =>
            rw [if_neg onwards]
            split at walked
            · cases walked
            · exact ih walked

/-- A path that leads anywhere leads to its destination. -/
theorem locate_eq_destination {path : Path} {location : Location}
    (located : files.locate path = .ok location) :
    location = path.destination files.workingDirectory := by
  cases followed : files.follow path with
  | error problem =>
      rw [locate, followed] at located
      cases located
  | ok reached =>
      rw [locate, followed] at located
      cases located
      unfold follow at followed
      split at followed
      · cases followed
      · split at followed
        · cases followed
        · unfold Path.destination
          cases start : path.start <;> rw [start] at followed <;> exact walk_eq_leadFrom _ followed

/-- Files without what is at their locations. -/
def bare (files : FileSystem) : FileSystem :=
  { files with nodes := [] }

end FileSystem

/-! ## Making directories -/

namespace FileM

variable {α : Type}

theorem preserves_ask (question : FileSystem → Except FileError α) :
    Preserves FileSystem.bare (ask question) := by
  intro files
  rw [ask]
  cases question files <;> rfl

theorem preserves_makeOnly (path : Path) : Preserves FileSystem.bare (makeOnly path) := by
  refine (preserves_ask _).bind fun location => Preserves.get.bind fun files => ?_
  cases files.node? location with
  | none => exact fun _ => rfl
  | some node => exact .throw _

theorem preserves_makeOne (path : Path) : Preserves FileSystem.bare (makeOne path) := by
  refine (preserves_makeOnly path).tryCatch fun error => ?_
  cases error.problem with
  | existing =>
      refine (preserves_ask _).bind fun found => ?_
      cases found with
      | none => exact .throw _
      | some node =>
          cases node with
          | directory => exact .pure ()
          | file content => exact .throw error
  | _ => exact .throw _

theorem preserves_makeWithin : ∀ (depth : Nat) (path : Path),
    Preserves FileSystem.bare (makeWithin depth path)
  | 0, path => preserves_makeOne path
  | depth + 1, path => by
      refine (preserves_makeOne path).tryCatch fun error => ?_
      cases error.problem with
      | missing =>
          dsimp only
          split
          · exact .throw _
          · exact (preserves_makeWithin depth path.parent).bind fun _ => preserves_makeOne path
      | _ => exact .throw _

/-- Whether directories can be made or not, what is left differs only in what is at locations. -/
theorem preserves_makeDirectories (path : Path) : Preserves FileSystem.bare (makeDirectories path) :=
  preserves_makeWithin path.names.length path

end FileM

/-! ## Databases that are taken and let go -/

namespace Disk

variable {disk after : Disk} {location : Location} {opening : Opening}

theorem contents_hold (contents : Database) :
    (disk.hold location contents).2.contents location = contents := by
  have there := disk.vault?_setVault location { contents, holder := some disk.openings }
  simp only [Disk.vault?, setVault] at there
  simp only [Disk.contents, hold, Disk.vault?, setVault, there, Option.elim_some]

/-- A database is opened by being held with the pairs that it has, and only if it is free. -/
theorem eq_hold_of_openAt {create refuse : Bool}
    (opened : disk.openAt location create refuse = .ok (opening, after)) :
    (opening, after) = disk.hold location (disk.contents location) ∧
      ∀ vault, disk.vault? location = some vault → vault.holder = none := by
  unfold openAt at opened
  split at opened
  · cases opened
  · next absent _ =>
      split at opened
      · rw [Disk.contents, absent]
        exact ⟨(Except.ok.inj opened).symm, fun vault there => by cases there⟩
      · cases opened
  · next vault there _ =>
      split at opened
      · cases opened
      · next free =>
          split at opened
          · cases opened
          · rw [Disk.contents, there]
            refine ⟨(Except.ok.inj opened).symm, fun other same => ?_⟩
            cases same
            exact Option.not_isSome_iff_eq_none.mp free

/-- **A database that is opened was free, and is held with the pairs that it had.** -/
theorem openAt_ok {create refuse : Bool}
    (opened : disk.openAt location create refuse = .ok (opening, after)) :
    opening.location = location ∧ after.files = disk.files ∧
      (∀ vault, disk.vault? location = some vault → vault.holder = none) ∧
        after.contents location = disk.contents location := by
  obtain ⟨same, free⟩ := eq_hold_of_openAt opened
  obtain ⟨rfl, rfl⟩ := Prod.mk.inj same
  exact ⟨rfl, rfl, free, contents_hold _⟩

/-- A database keeps its pairs when it is let go. -/
theorem contents_release : (disk.release opening).contents opening.location =
    disk.contents opening.location := by
  unfold release
  cases there : disk.vault? opening.location with
  | none => rfl
  | some vault =>
      simp only [Disk.contents, vault?_setVault, there, Option.elim_some]

end Disk

/-! ## Opening -/

/-- A session without what is at the locations of its disk. -/
def Session.bare (session : Session) : Session :=
  { session with disk := { session.disk with files := session.disk.files.bare } }

section Bare

variable {first second : Session} (same : first.bare = second.bare)
include same

theorem Session.store_of_bare_eq : first.store = second.store := by
  have stores := congrArg Session.store same
  exact stores

theorem Session.vaults_of_bare_eq : first.disk.vaults = second.disk.vaults := by
  have vaults := congrArg (fun session => session.disk.vaults) same
  exact vaults

theorem Session.workingDirectory_of_bare_eq :
    first.disk.files.workingDirectory = second.disk.files.workingDirectory := by
  have starts := congrArg (fun session => session.disk.files.workingDirectory) same
  exact starts

end Bare

/-- The location of the database of the store of a session. -/
def Session.location (session : Session) : Location :=
  session.store.databasePath.destination session.disk.files.workingDirectory

/-- What is left when a store has been opened. -/
structure Session.Opened (before : Session) (opening : Opening) (after : Session) : Prop where
  store : after.store = { before.store with opening := some opening }
  location : opening.location = before.location
  workingDirectory : after.disk.files.workingDirectory = before.disk.files.workingDirectory
  /-- The database was held by no opening. -/
  free : ∀ vault, before.disk.vault? opening.location = some vault → vault.holder = none
  held : after.disk.isHeldBy opening = true
  contents : after.disk.contents opening.location = before.disk.contents opening.location

namespace Session.Opened

variable {before between after : Session} {opening : Opening}

/-- What is at the locations of a disk does not matter to what is left. -/
theorem of_bare_eq (opened : between.Opened opening after) (same : between.bare = before.bare) :
    before.Opened opening after := by
  have store := store_of_bare_eq same
  have start := workingDirectory_of_bare_eq same
  have found : between.disk.vault? = before.disk.vault? := by
    funext location
    rw [Disk.vault?, Disk.vault?, vaults_of_bare_eq same]
  constructor
  · rw [opened.store, store]
  · rw [opened.location, Session.location, Session.location, store, start]
  · rw [opened.workingDirectory, start]
  · exact found ▸ opened.free
  · exact opened.held
  · rw [opened.contents, Disk.contents, Disk.contents, found]

/-- What is told does not matter to what is left. -/
theorem told (opened : before.Opened opening after) (journal : Journal) :
    before.Opened opening { after with journal } :=
  { opened with }

end Session.Opened

namespace Store

theorem preserves_withFiles {α : Type} {change : FileM α}
    (keeps : Preserves FileSystem.bare change) : Preserves Session.bare (withFiles change) := by
  intro session
  have here := keeps session.disk.files
  rw [withFiles]
  cases run : change session.disk.files with
  | ok value files =>
      rw [run] at here
      simp only [Session.bare, here]
  | error cause files =>
      rw [run] at here
      simp only [Session.bare, here]

theorem preserves_prepareDirectory : Preserves Session.bare prepareDirectory := by
  refine Preserves.get.bind fun session => ?_
  dsimp only
  split
  · exact preserves_withFiles (FileM.preserves_makeDirectories _)
  · refine (preserves_withFiles (FileM.preserves_ask _)).bind fun found => ?_
    cases found with
    | none => exact .throw _
    | some node => exact .pure ()

/-- A logger can be told a message, and then the journal is longer and nothing else is changed. -/
theorem tell_of_logger (session : Session) {logger : Logger}
    (known : session.store.logger = .logger logger) (level : Level) (text : String) :
    tell level text session = .ok () { session with
      journal := session.journal ++ [{ logger := logger.name, level, text }] } := by
  rw [tell, EStateM.get_bind, known]
  rfl

/-- The database of a store is taken, or all stays as it is. -/
theorem openDatabase_cases (session : Session) :
    (∃ opening after, openDatabase session = .ok () after ∧ session.Opened opening after ∧
        after.journal = session.journal) ∨
      ∃ cause, openDatabase session = .error cause session := by
  rw [openDatabase, EStateM.get_bind]
  dsimp only
  cases session.store.options.databaseArguments with
  | error cause => exact .inr ⟨.option cause, rfl⟩
  | ok arguments =>
      dsimp only
      cases Options.wordFault? arguments with
      | some cause => exact .inr ⟨.word cause, rfl⟩
      | none =>
          cases located : session.disk.files.locate session.store.databasePath with
          | error cause =>
              refine .inr ⟨.file cause, EStateM.bind_error ?_⟩
              simp only [withFiles, FileM.ask, located]
          | ok location =>
              have looked : withFiles (FileM.ask fun files =>
                  files.locate session.store.databasePath) session = .ok location session := by
                simp only [withFiles, FileM.ask, located]
              cases result : session.disk.openAt location
                  (session.store.options.free .createIfMissing).isTruthy
                  (session.store.options.free .errorIfExists).isTruthy with
              | error cause =>
                  refine .inr ⟨.database cause, (EStateM.bind_ok looked).trans ?_⟩
                  rw [result]
                  rfl
              | ok pair =>
                  obtain ⟨opening, disk⟩ := pair
                  obtain ⟨place, files, free, contents⟩ := Disk.openAt_ok result
                  refine .inl ⟨opening, { session with
                    disk
                    store := { session.store with opening := some opening } }, ?_, ?_, rfl⟩
                  · refine (EStateM.bind_ok looked).trans ?_
                    rw [result]
                    rfl
                  · exact {
                      store := rfl
                      location := place.trans (FileSystem.locate_eq_destination located)
                      workingDirectory := congrArg FileSystem.workingDirectory files
                      free := place ▸ free
                      held := Disk.isHeldBy_of_openAt result
                      contents := place ▸ contents }

/-- **A store is opened, or fails to be and all but the directories stays as it is.** -/
theorem openStore_cases {session : Session}
    (told : ∃ logger, session.store.logger = .logger logger) :
    (∃ opening after, openStore session = .ok () after ∧ session.Opened opening after) ∨
      ∃ cause after, openStore session = .error cause after ∧ after.bare = session.bare := by
  have kept := preserves_prepareDirectory session
  cases prepared : prepareDirectory session with
  | error cause after =>
      rw [prepared] at kept
      exact .inr ⟨cause, after, EStateM.bind_error prepared, kept⟩
  | ok value between =>
      rw [prepared] at kept
      rcases openDatabase_cases between with ⟨opening, taken, done, opened, _⟩ | ⟨cause, failed⟩
      · obtain ⟨logger, known⟩ := told
        have known : taken.store.logger = .logger logger := by
          rw [opened.store, Session.store_of_bare_eq kept, known]
        have last := tell_of_logger taken known .info
          ("Opened record store: " ++ taken.store.databasePath.text)
        refine .inl ⟨opening, _,
          (EStateM.bind_ok prepared).trans ((EStateM.bind_ok done).trans last), ?_⟩
        exact (opened.of_bare_eq kept).told _
      · exact .inr ⟨cause, between, (EStateM.bind_ok prepared).trans (EStateM.bind_error failed), kept⟩

/-! ## Closing -/

/-- A store that is not open stays as it is when it is closed. -/
theorem closeStore_of_closed {session : Session} (closed : session.store.opening = none) :
    closeStore session = .ok () session := by
  rw [closeStore, EStateM.get_bind, closed]
  rfl

/-- **An open store that is closed lets its database go**, and tells its logger. -/
theorem closeStore_run {session : Session} {opening : Opening}
    (opened : session.store.opening = some opening)
    (told : ∃ logger, session.store.logger = .logger logger) :
    ∃ journal, closeStore session = .ok () {
      disk := session.disk.release opening
      store := { session.store with opening := none }
      journal } := by
  obtain ⟨logger, known⟩ := told
  refine ⟨session.journal ++ [{
    logger := logger.name
    level := .info
    text := "Closed record store: " ++ session.store.databasePath.text }], ?_⟩
  rw [closeStore, EStateM.get_bind, opened]
  exact tell_of_logger {
    disk := session.disk.release opening
    store := { session.store with opening := none }
    journal := session.journal } known .info _

end Store

end Septet
