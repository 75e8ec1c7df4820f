import Mathlib.Logic.Function.Basic
import Septet.Proofs.CommandLine.Reports
import Septet.Proofs.CommandLine.Words
import Septet.Proofs.Store.Visits
import Septet.Proofs.Text.Utf8RoundTrip

/-!
# Runs keep a shelf

A shelf has the fields of the names that have a record, as texts.  It says how the run of
an order ends (`Shelf.outcome`) and what the shelf is after it (`Shelf.after`).

A machine keeps a shelf when nothing is logged, the store with a path has no settings and
can be opened, and its database has the fields of the shelf (`Machine.Keeps`).  One run of
an order on such a machine ends as the shelf has it, and the machine keeps the shelf that
comes after it (`Machine.Keeps.run`): the store is opened for the run, its action does to
the database what the order does to the shelf (`Machine.Keeps.useStore`), and then the
store is closed, also where the record is found to be missing only after that.  So the
runs of any orders on an empty store end as a shelf has it that is empty at first
(`runAll_explained`).
-/

set_option autoImplicit false

namespace Septet.CommandLine

/-! ## Shelves -/

/-- The texts of the names that have a record. -/
abbrev Shelf := String → Option (List String)

namespace Shelf

/-- No name has a record. -/
def empty : Shelf := fun _ => none

/-- The shelf after an order. -/
def after (shelf : Shelf) : Order → Shelf
  | .put name fields => Function.update shelf name (some fields)
  | .get _ => shelf
  | .delete name => Function.update shelf name none

/-- A run that prints something and succeeds. -/
def success (printed : String) : Outcome where
  printed
  reported := ""
  ending := .exit 0

/-- A run that finds no record of a name. -/
def notFound (name : String) : Outcome where
  printed := ""
  reported := "vlqdb: record not found: " ++ name ++ "\n"
  ending := .exit 1

/-- How the run of an order ends. -/
def outcome (shelf : Shelf) : Order → Outcome
  | .put _ _ => success ""
  | .get name =>
      match shelf name with
      | some fields => success (String.join (fields.map fun field => field ++ "\n"))
      | none => notFound name
  | .delete name => if (shelf name).isSome then success "" else notFound name

/-- The fields of the names, as they are stored. -/
def catalogue (shelf : Shelf) : Catalogue :=
  fun name => (shelf name).map (List.map Utf8.encode)

end Shelf

/-! ## Printing -/

theorem printLines_run (lines : List String) : ∀ desk : Desk,
    printLines lines desk = .ok () { desk with
      printed := desk.printed ++ String.join (lines.map fun line => line ++ "\n") } := by
  induction lines with
  | nil =>
      intro desk
      have none : desk.printed ++ "" = desk.printed := String.append_empty
      simp only [List.map_nil, String.join, List.foldl_nil, none]
      rfl
  | cons line lines ih =>
      intro desk
      -- the line is printed first, and then the others
      have both : printLines (line :: lines) desk =
          printLines lines { desk with printed := desk.printed ++ line ++ "\n" } := rfl
      rw [both, ih, List.map_cons, String.join_cons]
      simp only [String.append_assoc]

/-! ## Using a store -/

section Using

variable {machine : Machine} {path : Path}

/-- Where no settings are found, a store has none. -/
theorem loadSettings_of_unset (unset : machine.disk.files.find (Store.settingsPath path) = .ok none) :
    Store.loadSettings machine.disk.files path = .ok {} := by
  rw [Store.loadSettings, unset]
  rfl

theorem ofSettings_of_unset (unset : machine.disk.files.find (Store.settingsPath path) = .ok none) :
    Store.ofSettings machine.disk.files path = .ok (.plain path) := by
  rw [Store.ofSettings, loadSettings_of_unset unset]
  rfl

/-- What a store does while it is open is done to the disk, where nothing is logged. -/
theorem useStore_ok {α : Type} {action : StoreM α} {value : α} {closed : Session}
    (surroundings : Surroundings) (unlogged : machine.log.file = none)
    (unset : machine.disk.files.find (Store.settingsPath path) = .ok none)
    (visited : Store.whileOpen action { disk := machine.disk, store := .plain path } =
      .ok value closed) :
    useStore surroundings path action { machine } =
      .ok value { machine := { machine with disk := closed.disk } } := by
  have worked : machine.work surroundings.time (.plain path) (Store.whileOpen action) =
      (.ok value, { machine with disk := closed.disk }) := by
    simp only [Machine.work, visited, Machine.record, unlogged]
  have settled : settle .setup (Store.ofSettings machine.disk.files path) { machine } =
      .ok (.plain path) { machine } := by
    rw [ofSettings_of_unset unset]
    rfl
  rw [useStore, EStateM.get_bind, EStateM.bind_ok settled]
  dsimp only
  rw [worked]
  exact EStateM.set_bind _ _ _

end Using

/-! ## Machines that keep a shelf -/

/-- The path of the store, whether the command line names it or not. -/
def storePath (place : Option String) (surroundings : Surroundings) (machine : Machine) : Path :=
  match place, surroundings.storePath with
  | some text, _ => Path.ofText text
  | none, some text => Path.ofText text
  | none, none => { start := .root, names := machine.disk.files.workingDirectory }

theorem storePathOf?_eq (place : Option String) (surroundings : Surroundings) (machine : Machine)
    {invocation : Invocation} (named : invocation.storePath = storeOccurrence place) :
    storePathOf? surroundings machine invocation = some (storePath place surroundings machine) := by
  rw [storePathOf?, named]
  cases place with
  | some text => rfl
  | none => cases start : surroundings.storePath <;> simp [storeOccurrence, storePath, start]

/-- Nothing is logged, the store with a path has no settings and can be opened, and its database has
the fields of a shelf. -/
structure Machine.Keeps (machine : Machine) (path : Path) (hash : NameHash) (bound : Nat)
    (shelf : Shelf) : Prop where
  unlogged : machine.log.file = none
  unset : machine.disk.files.find (Store.settingsPath path) = .ok none
  /-- No settings are found either when the directory of the database has been made. -/
  ready : ∃ files, machine.disk.Ready path files ∧
    files.find (Store.settingsPath path) = .ok none
  keeps : machine.disk.Keeps path hash bound shelf.catalogue

/-- The pairs of the database of the stores with a path. -/
def Machine.contents (machine : Machine) (path : Path) : Database :=
  machine.disk.contents (machine.disk.locationOf path)

/-- The number of records that an order writes. -/
def Order.count : Order → Nat
  | put _ _ => 1
  | get _ | delete _ => 0

/-- What an order writes is a record that fits. -/
def Order.Fits : Order → Prop
  | put name fields => (Record.mk name (fields.map Utf8.encode)).Fits
  | get _ | delete _ => True

instance (order : Order) : Decidable order.Fits := by
  cases order <;> unfold Order.Fits <;> infer_instance

theorem Shelf.catalogue_update (shelf : Shelf) (name : String) (fields : Option (List String)) :
    Shelf.catalogue (Function.update shelf name fields) =
      Function.update shelf.catalogue name (fields.map (List.map Utf8.encode)) := by
  funext other
  by_cases same : other = name
  · subst same
    rw [catalogue, Function.update_self, Function.update_self]
  · rw [catalogue, Function.update_of_ne same, Function.update_of_ne same, catalogue]

section Keeping

variable {machine : Machine} {path : Path} {hash : NameHash} {bound : Nat} {shelf : Shelf}

/-- **An action of an open store is done to the disk of a machine**, which keeps the shelf that the
action comes to. -/
theorem Machine.Keeps.useStore (keeps : machine.Keeps path hash bound shelf)
    (surroundings : Surroundings) {α : Type} {action : StoreM α} {value : α} {later : Nat}
    {left : Shelf} {quiet : Prop}
    (acts : ∀ {session opening}, session.Keeps opening hash bound shelf.catalogue →
      session.store.options = .default → ∃ acted, action session = .ok value acted ∧
        acted.Keeps opening hash later left.catalogue ∧ acted.fixed = session.fixed ∧
          (quiet → acted.database opening = session.database opening)) :
    ∃ after : Machine, CommandLine.useStore surroundings path action { machine } =
        .ok value { machine := after } ∧
      after.Keeps path hash later left ∧
      after.disk.files.workingDirectory = machine.disk.files.workingDirectory ∧
      (quiet → after.contents path = machine.contents path) := by
  obtain ⟨files, ready, unset⟩ := keeps.ready
  obtain ⟨closed, visited, filesClosed, readyClosed, keepsClosed, still⟩ :=
    keeps.keeps.visit ready acts
  have start : files.workingDirectory = machine.disk.files.workingDirectory := by
    have kept := FileM.preserves_makeDirectories (Store.plain path).databasePath machine.disk.files
    rw [ready.made] at kept
    have bare : files.bare = machine.disk.files.bare := kept
    have starts := congrArg FileSystem.workingDirectory bare
    exact starts
  refine ⟨{ machine with disk := closed.disk },
    useStore_ok surroundings keeps.unlogged keeps.unset visited,
    ⟨keeps.unlogged, ?_, ⟨files, readyClosed, unset⟩, keepsClosed⟩, ?_, still⟩
  · exact filesClosed ▸ unset
  · exact (congrArg FileSystem.workingDirectory filesClosed).trans start

/-- A run without a log and without settings does what its command does, and ends as that does. -/
theorem run_of_read {place : Option String} {surroundings : Surroundings} {strings : List String}
    {command : Command}
    (read : Invocation.read strings = .ok {
      storePath := storeOccurrence place
      logFile := none
      logLevel := none
      command })
    (unset : machine.disk.files.find
      (Store.settingsPath (storePath place surroundings machine)) = .ok none) :
    run surroundings strings machine =
      conclude surroundings machine (storePath place surroundings machine) command := by
  have unnamed : logFileOf {
      storePath := storeOccurrence place
      logFile := none
      logLevel := none
      command } = none := rfl
  have followed : followSettings (storePath place surroundings machine) machine =
      .ok () machine := by
    rw [followSettings_ok (loadSettings_of_unset unset)]
    rfl
  rw [run, read]
  dsimp only
  rw [prepare_of_unnamed unnamed, storePathOf?_eq place surroundings machine rfl]
  dsimp only
  rw [followed]

theorem run_strings (keeps : machine.Keeps path hash bound shelf) {place : Option String}
    (plainPlace : ∀ text ∈ place, IsPlain text) {surroundings : Surroundings}
    (there : storePath place surroundings machine = path) {order : Order}
    (plain : ∀ text ∈ order.texts, IsPlain text) :
    run surroundings (order.strings place) machine =
      conclude surroundings machine path order.command := by
  subst there
  exact run_of_read (read_strings plainPlace plain) keeps.unset

/-- A command that is performed without a failure ends with what it has printed. -/
theorem conclude_ok {surroundings : Surroundings} {command : Command} {desk : Desk}
    (performed : perform surroundings path command { machine } = .ok () desk) :
    conclude surroundings machine path command = (Shelf.success desk.printed, desk.machine) := by
  rw [conclude, performed]
  rfl

/-- A command that fails ends with what it has printed and one report. -/
theorem conclude_error {surroundings : Surroundings} {command : Command} {desk : Desk}
    {cause : RunError} (reported : cause.isReported = true)
    (performed : perform surroundings path command { machine } = .error cause desk) :
    conclude surroundings machine path command = ({
      printed := desk.printed
      reported := "vlqdb: " ++ cause.message ++ "\n"
      ending := .exit 1 }, desk.machine) := by
  have opening : programName ++ ": " = "vlqdb: " := by decide +kernel
  rw [conclude, performed]
  dsimp only
  rw [if_pos reported, opening]

theorem conclude_absent {surroundings : Surroundings} {command : Command} {after : Machine}
    {name : String}
    (performed : perform surroundings path command { machine } =
      .error (.absent name) { machine := after }) :
    conclude surroundings machine path command = (Shelf.notFound name, after) := by
  have opening : "vlqdb: " ++ "record not found: " = "vlqdb: record not found: " := by
    decide +kernel
  have reported : (RunError.absent name).isReported = true := rfl
  have message : (RunError.absent name).message = "record not found: " ++ name := rfl
  rw [conclude_error reported performed, message, ← String.append_assoc, opening, Shelf.notFound]

/-- What an order comes to on a machine that keeps a shelf. -/
structure Order.Done (order : Order) (machine : Machine) (path : Path) (hash : NameHash)
    (later : Nat) (shelf : Shelf) (result : Outcome × Machine) : Prop where
  ends : result.1 = shelf.outcome order
  keeps : result.2.Keeps path hash later (shelf.after order)
  start : result.2.disk.files.workingDirectory = machine.disk.files.workingDirectory
  unchanged : (shelf.outcome order).ending = .exit 1 →
    result.2.contents path = machine.contents path

section Concluding

variable {surroundings : Surroundings}
  (keeps : machine.Keeps path surroundings.hash bound shelf) (name : String)
include keeps

theorem Machine.Keeps.put {fields : List String} (fits : (Order.put name fields).Fits)
    (enough : bound + 1 ≤ 2 ^ 64) :
    (Order.put name fields).Done machine path surroundings.hash (bound + 1) shelf
      (conclude surroundings machine path (.put name fields)) := by
  obtain ⟨after, used, kept, start, _⟩ := keeps.useStore surroundings
    fun {session opening} keepsOpen options => by
      have within : session.store.options.maxBatchSize.lessThan 1 = false := by
        rw [options]
        rfl
      obtain ⟨acted, done, keptThen, fixed⟩ := keepsOpen.put_fixed within fits enough
      refine ⟨acted, done, ?_, fixed, False.elim⟩
      rw [← Option.map_some (f := List.map Utf8.encode), ← Shelf.catalogue_update] at keptThen
      exact keptThen
  have performed : perform surroundings path (.put name fields) { machine } =
      .ok () { machine := after } := used
  rw [conclude_ok performed]
  refine ⟨rfl, kept, start, fun failed => ?_⟩
  cases failed

theorem Machine.Keeps.get :
    (Order.get name).Done machine path surroundings.hash bound shelf
      (conclude surroundings machine path (.get name)) := by
  obtain ⟨after, used, kept, start, still⟩ := keeps.useStore surroundings
    fun {session opening} keepsOpen _ =>
      ⟨session, keepsOpen.fieldsOf_fixed name, keepsOpen, rfl, fun _ : True => rfl⟩
  suffices ends : conclude surroundings machine path (.get name) =
      (shelf.outcome (.get name), after) by
    rw [ends]
    exact ⟨rfl, kept, start, fun _ => still trivial⟩
  cases found : shelf name with
  | none =>
      have absent : perform surroundings path (.get name) { machine } =
          .error (.absent name) { machine := after } := by
        rw [perform, EStateM.bind_ok used, Shelf.catalogue, found]
        rfl
      rw [Shelf.outcome, found, conclude_absent absent]
  | some fields =>
      have shown : perform surroundings path (.get name) { machine } =
          .ok () {
            machine := after
            printed := "" ++ String.join (fields.map fun field => field ++ "\n") } := by
        rw [perform, EStateM.bind_ok used, Shelf.catalogue, found, Option.map_some]
        simp only [List.map_map, Function.comp_def, Utf8.decodeEscaping_encode, List.map_id',
          printLines_run]
      rw [Shelf.outcome, found, conclude_ok shown, String.empty_append]

theorem Machine.Keeps.delete :
    (Order.delete name).Done machine path surroundings.hash bound shelf
      (conclude surroundings machine path (.delete name)) := by
  obtain ⟨after, used, kept, start, still⟩ := keeps.useStore surroundings
    fun {session opening} keepsOpen _ => by
      obtain ⟨acted, done, keptThen, fixed, same⟩ := keepsOpen.delete_fixed name
      refine ⟨acted, done, ?_, fixed, same⟩
      rw [← Option.map_none (f := List.map Utf8.encode), ← Shelf.catalogue_update] at keptThen
      exact keptThen
  have known : (shelf.catalogue name).isSome = (shelf name).isSome := by
    rw [Shelf.catalogue, Option.isSome_map]
  cases found : shelf name with
  | none =>
      have absent : perform surroundings path (.delete name) { machine } =
          .error (.absent name) { machine := after } := by
        rw [perform, EStateM.bind_ok used, known, found]
        rfl
      have nothing : shelf.catalogue name = none := by
        rw [Shelf.catalogue, found, Option.map_none]
      rw [conclude_absent absent]
      refine ⟨?_, kept, start, fun _ => still nothing⟩
      rw [Shelf.outcome, found]
      rfl
  | some fields =>
      have gone : perform surroundings path (.delete name) { machine } =
          .ok () { machine := after } := by
        rw [perform, EStateM.bind_ok used, known, found]
        rfl
      have ends : shelf.outcome (.delete name) = Shelf.success "" := by
        rw [Shelf.outcome, found]
        rfl
      rw [conclude_ok gone]
      refine ⟨ends.symm, kept, start, fun failed => ?_⟩
      rw [ends] at failed
      cases failed

end Concluding

/-- **A run of an order ends as the shelf has it**, and the machine keeps the shelf after it. -/
theorem Machine.Keeps.run {surroundings : Surroundings}
    (keeps : machine.Keeps path surroundings.hash bound shelf) {place : Option String}
    (plainPlace : ∀ text ∈ place, IsPlain text)
    (there : storePath place surroundings machine = path) {order : Order}
    (plain : ∀ text ∈ order.texts, IsPlain text) (fits : order.Fits)
    (enough : bound + order.count ≤ 2 ^ 64) :
    order.Done machine path surroundings.hash (bound + order.count) shelf
      (CommandLine.run surroundings (order.strings place) machine) := by
  rw [run_strings keeps plainPlace there plain]
  cases order with
  | put name fields => exact keeps.put name fits enough
  | get name => exact keeps.get name
  | delete name => exact keeps.delete name

end Keeping

/-! ## Runs one after the other -/

/-- Runs orders at their times, each on the machine that the one before it has left. -/
def runAll (place : Option String) (surroundings : Surroundings) :
    List (String × Order) → Machine → List (Outcome × Machine)
  | [], _ => []
  | (time, order) :: rest, machine =>
      let result := run { surroundings with time } (order.strings place) machine
      result :: runAll place surroundings rest result.2

/-- The runs of orders end as a shelf has it, from a machine on.  A run that finds no record changes
nothing in the database, and after every run the database is free and can be opened again. -/
inductive Shelf.Explains (path : Path) :
    Shelf → Machine → List Order → List (Outcome × Machine) → Prop where
  | nil {shelf : Shelf} {machine : Machine} : Explains path shelf machine [] []
  | cons {shelf : Shelf} {machine : Machine} {order : Order} {orders : List Order}
      {result : Outcome × Machine} {results : List (Outcome × Machine)}
      (ends : result.1 = shelf.outcome order)
      (unchanged : (shelf.outcome order).ending = .exit 1 →
        result.2.contents path = machine.contents path)
      (free : ∀ vault, result.2.disk.vault? (result.2.disk.locationOf path) = some vault →
        vault.holder = none)
      (opens : ∃ opened, Store.openStore { disk := result.2.disk, store := .plain path } =
        .ok () opened)
      (later : Explains path (shelf.after order) result.2 orders results) :
      Explains path shelf machine (order :: orders) (result :: results)

/-- Runs keep explaining what a machine keeps. -/
theorem Machine.Keeps.runAll {path : Path} {place : Option String} {surroundings : Surroundings}
    (plainPlace : ∀ text ∈ place, IsPlain text) (orders : List (String × Order)) :
    ∀ {machine : Machine} {bound : Nat} {shelf : Shelf},
      machine.Keeps path surroundings.hash bound shelf →
      storePath place surroundings machine = path →
      (∀ entry ∈ orders, ∀ text ∈ entry.2.texts, IsPlain text) →
      (∀ entry ∈ orders, entry.2.Fits) →
      bound + (orders.map fun entry => entry.2.count).sum ≤ 2 ^ 64 →
        shelf.Explains path machine (orders.map Prod.snd)
          (CommandLine.runAll place surroundings orders machine) := by
  induction orders with
  | nil => exact fun _ _ _ _ _ => .nil
  | cons entry orders ih =>
      intro machine bound shelf keeps there plain fits enough
      obtain ⟨time, order⟩ := entry
      obtain ⟨here, plainLater⟩ := List.forall_mem_cons.mp plain
      obtain ⟨fitsHere, fitsLater⟩ := List.forall_mem_cons.mp fits
      rw [List.map_cons, List.sum_cons, ← Nat.add_assoc] at enough
      -- the time of a run changes neither the hash of names nor the path of the store
      have timed : machine.Keeps path ({ surroundings with time } : Surroundings).hash bound shelf :=
        keeps
      have done := timed.run plainPlace there here fitsHere
        (le_trans (Nat.le_add_right _ _) enough)
      obtain ⟨files, ready, _⟩ := done.keeps.ready
      obtain ⟨_, opened, opens, _⟩ := Store.openStore_plain ready
      have still : storePath place surroundings
          (CommandLine.run { surroundings with time } (order.strings place) machine).2 = path := by
        rw [← there]
        simp only [storePath, done.start]
      exact .cons done.ends done.unchanged ready.free ⟨opened, opens⟩
        (ih done.keeps still plainLater fitsLater enough)

/-- **The runs of orders on an empty store end as a shelf has it** that is empty at first. -/
theorem runAll_explained {machine : Machine} {path : Path} {files : FileSystem}
    {place : Option String} {surroundings : Surroundings} {orders : List (String × Order)}
    (unlogged : machine.log.file = none)
    (there : storePath place surroundings machine = path)
    (ready : machine.disk.Ready path files)
    (unset : machine.disk.files.find (Store.settingsPath path) = .ok none)
    (unsetThen : files.find (Store.settingsPath path) = .ok none)
    (fresh : (machine.contents path).pairs = [])
    (plainPlace : ∀ text ∈ place, IsPlain text)
    (plain : ∀ entry ∈ orders, ∀ text ∈ entry.2.texts, IsPlain text)
    (fits : ∀ entry ∈ orders, entry.2.Fits)
    (countable : (orders.map fun entry => entry.2.count).sum ≤ 2 ^ 64) :
    Shelf.empty.Explains path machine (orders.map Prod.snd)
      (runAll place surroundings orders machine) := by
  have keeps : machine.disk.Keeps path surroundings.hash 0 Shelf.empty.catalogue := by
    refine ⟨Database.regular_of_pairs_eq_nil fresh surroundings.hash, fun name => ?_⟩
    have none : (machine.disk.contents (machine.disk.locationOf path)).pairs = [] := fresh
    simp only [Database.fieldsOf, Database.find, Database.under, none]
    rfl
  exact Machine.Keeps.runAll plainPlace orders ⟨unlogged, unset, ⟨files, ready, unsetThen⟩, keeps⟩
    there plain fits (by rwa [Nat.zero_add])

/-- A machine with nothing on it. -/
def Machine.blank : Machine where
  disk := { files := { workingDirectory := [], nodes := [] } }

/-- Its working directory can become a store. -/
theorem Machine.ready_blank : Machine.blank.disk.Ready { start := .root, names := [] } {
    workingDirectory := []
    nodes := [([".vlqdb", "database"], .directory), ([".vlqdb"], .directory)] } where
  made := rfl
  free := fun _ there => by cases there

/-- Orders, two of which ask for a record that is not there, with the times of their runs. -/
def timedOrders : List (String × Order) :=
  [("0", .get "a"), ("1", .put "a" ["x", ""]), ("2", .put "b" []), ("3", .get "a"),
    ("4", .delete "b"), ("5", .delete "b")]

theorem runAll_explained_sharedHash :
    Shelf.empty.Explains { start := .root, names := [] } .blank (timedOrders.map Prod.snd)
      (runAll none .plain timedOrders .blank) :=
  runAll_explained rfl rfl Machine.ready_blank rfl rfl rfl (by decide) (by decide +kernel)
    (by decide +kernel) (by decide +kernel)

end Septet.CommandLine
