import Septet.Proofs.Store.Opening
import Septet.Proofs.Store.Workshop

/-!
# Stores that share a database

Stores with one path share one database.  Whatever is done with them, at most one of
them is open at a time, and one that is not open does nothing and changes nothing; a
store that cannot be opened leaves all others as they were, and its own opening too, if
it has one (`Workshop.TakesTurns`).  So the pairs that a store reads are those that the
last successful write has left, whichever store wrote them and however often the
database has been closed and opened since (`stores_takeTurns`).

The invariant is that the stores lead to one location, can tell their loggers, and that
an open one holds the database there (`Workshop.Orderly`); every step keeps it
(`Orderly.step`).
-/

set_option autoImplicit false

namespace Septet

/-! ## What no call changes -/

theorem Preserves.left {τ α : Type} {quantity : Session → τ} {action : StoreM α}
    (keeps : Preserves quantity action) (session : Session) :
    quantity (action.left session) = quantity session := by
  have here := keeps session
  rw [StoreM.left]
  cases run : action session with
  | ok value after => rwa [run] at here
  | error cause after => rwa [run] at here

/-- The files and the store of a session. -/
def Session.fixed (session : Session) : FileSystem × Store :=
  (session.disk.files, session.store)

theorem Store.preserves_contents : Preserves Session.fixed Store.contents := by
  refine Preserves.bind (Preserves.get.bind fun session => ?_) fun opening =>
    Preserves.get.bind fun session => .pure _
  cases session.store.opening with
  | none => exact .throw _
  | some opening => exact .pure opening

theorem Store.preserves_setContents (contents : Database) :
    Preserves Session.fixed (Store.setContents contents) := by
  refine Preserves.bind (Preserves.get.bind fun session => ?_) fun opening session => ?_
  · cases session.store.opening with
    | none => exact .throw _
    | some opening => exact .pure opening
  · show ((session.disk.setContents opening.location contents).files, session.store) =
      session.fixed
    rw [Disk.setContents]
    cases session.disk.vault? opening.location <;> rfl

theorem Store.preserves_tell (level : Level) (text : String) :
    Preserves Session.fixed (Store.tell level text) := by
  refine Preserves.get.bind fun session => ?_
  cases session.store.logger with
  | logger logger => exact fun _ => rfl
  | _ => exact .throw _

theorem Store.preserves_putMany (hash : NameHash) (records : List Record) :
    Preserves Session.fixed (Store.putMany hash records) := by
  refine Preserves.get.bind fun session => Store.preserves_contents.bind fun database => ?_
  cases database.putMany hash session.store.options.maxBatchSize records with
  | error cause => exact .throw _
  | ok written => exact (Store.preserves_setContents written).bind fun _ => Store.preserves_tell _ _

theorem Store.preserves_fieldsOf (hash : NameHash) (name : String) :
    Preserves Session.fixed (Store.fieldsOf hash name) := by
  refine Store.preserves_contents.bind fun database => ?_
  cases database.find hash name with
  | error cause => exact .throw _
  | ok found => exact .pure _

theorem Store.preserves_delete (hash : NameHash) (name : String) :
    Preserves Session.fixed (Store.delete hash name) := by
  refine Store.preserves_contents.bind fun database => ?_
  cases database.delete hash name with
  | error cause => exact .throw _
  | ok result => exact (Store.preserves_setContents result.2).bind fun _ => .pure _

/-- A call leaves all files and the store itself as they are. -/
theorem Call.preserves_perform (hash : NameHash) (call : Call) :
    Preserves Session.fixed (call.perform hash) := by
  cases call with
  | get name => exact (Store.preserves_fieldsOf hash name).bind fun _ => .pure _
  | put record => exact (Store.preserves_putMany hash [record]).bind fun _ => .pure _
  | putMany records => exact (Store.preserves_putMany hash records).bind fun _ => .pure _
  | delete name => exact (Store.preserves_delete hash name).bind fun _ => .pure _
  | names =>
      refine Preserves.bind (Store.preserves_contents.bind fun database => .pure _) fun listing => ?_
      cases listing.failure with
      | none => exact .pure _
      | some cause => exact .throw _

theorem Call.fixed_left (hash : NameHash) (call : Call) (session : Session) :
    ((call.perform hash).left session).fixed = session.fixed :=
  (Call.preserves_perform hash call).left session

namespace Workshop

variable {ι : Type}

/-! ## What a store sees -/

section Seeing

variable {workshop : Workshop ι} {user : ι}

theorem sees_of_open {opening : Opening} (opened : (workshop.stores user).opening = some opening) :
    workshop.sees user = .ok (workshop.disk.contents opening.location) := by
  have there : (workshop.session user).store.opening = some opening := opened
  have run : Store.requireOpening (workshop.session user) = .ok opening (workshop.session user) := by
    rw [Store.requireOpening, EStateM.get_bind, there]
    rfl
  rw [sees, StoreM.outcome, Store.contents, EStateM.bind_ok run, EStateM.get_bind]
  rfl

theorem sees_of_closed (closed : (workshop.stores user).opening = none) :
    workshop.sees user = .error .notOpen := by
  have nothing : (workshop.session user).store.opening = none := closed
  have run : Store.requireOpening (workshop.session user) =
      .error .notOpen (workshop.session user) := by
    rw [Store.requireOpening, EStateM.get_bind, nothing]
    rfl
  rw [sees, StoreM.outcome, Store.contents, EStateM.bind_error run]

theorem opening_of_not_isOpen (closed : ¬workshop.IsOpen user) :
    (workshop.stores user).opening = none :=
  Option.not_isSome_iff_eq_none.mp closed

end Seeing

/-! ## What a failed opening leaves -/

/-- A workshop without what is at the locations of its disk. -/
def bare (workshop : Workshop ι) : Workshop ι :=
  { workshop with disk := { workshop.disk with files := workshop.disk.files.bare } }

section Bare

variable {first second : Workshop ι} (same : first.bare = second.bare)
include same

theorem stores_of_bare_eq : first.stores = second.stores := by
  have stores := congrArg Workshop.stores same
  exact stores

theorem vaults_of_bare_eq : first.disk.vaults = second.disk.vaults := by
  have vaults := congrArg (fun workshop => workshop.disk.vaults) same
  exact vaults

theorem vault?_of_bare_eq : first.disk.vault? = second.disk.vault? := by
  funext location
  rw [Disk.vault?, Disk.vault?, vaults_of_bare_eq same]

theorem contents_of_bare_eq (location : Location) :
    first.disk.contents location = second.disk.contents location := by
  rw [Disk.contents, Disk.contents, vault?_of_bare_eq same]

theorem workingDirectory_of_bare_eq :
    first.disk.files.workingDirectory = second.disk.files.workingDirectory := by
  have starts := congrArg (fun workshop => workshop.disk.files.workingDirectory) same
  exact starts

theorem isHeldBy_of_bare_eq (opening : Opening) :
    first.disk.isHeldBy opening = second.disk.isHeldBy opening := by
  rw [Disk.isHeldBy, Disk.isHeldBy, vault?_of_bare_eq same]

theorem sees_of_bare_eq (user : ι) : first.sees user = second.sees user := by
  have stores := stores_of_bare_eq same
  cases there : (second.stores user).opening with
  | none => rw [sees_of_closed there, sees_of_closed (stores ▸ there)]
  | some opening =>
      rw [sees_of_open there, sees_of_open (stores ▸ there), contents_of_bare_eq same]

theorem isOpen_of_bare_eq (user : ι) : first.IsOpen user ↔ second.IsOpen user := by
  rw [IsOpen, IsOpen, stores_of_bare_eq same]

end Bare

/-! ## Stores in order -/

/-- The stores lead to one location and can tell their loggers; at most one of them is open, and
it holds the database there. -/
structure Orderly (workshop : Workshop ι) (location : Location) : Prop where
  located : ∀ user, (workshop.session user).location = location
  told : ∀ user, ∃ logger, (workshop.stores user).logger = .logger logger
  held : ∀ user opening, (workshop.stores user).opening = some opening →
    opening.location = location ∧ workshop.disk.isHeldBy opening = true
  single : ∀ user other, workshop.IsOpen user → workshop.IsOpen other → user = other

namespace Orderly

variable {workshop : Workshop ι} {location : Location} (orderly : workshop.Orderly location)
  {user : ι} {opening : Opening}
include orderly

theorem ready (opened : (workshop.stores user).opening = some opening) :
    (workshop.session user).Ready opening where
  opened := opened
  held := (orderly.held user opening opened).2
  told := orderly.told user

theorem database_eq (opened : (workshop.stores user).opening = some opening) :
    (workshop.session user).database opening = workshop.disk.contents location := by
  rw [← (orderly.held user opening opened).1]
  rfl

theorem sees_eq (opened : workshop.IsOpen user) :
    workshop.sees user = .ok (workshop.disk.contents location) := by
  obtain ⟨opening, there⟩ := Option.isSome_iff_exists.mp opened
  rw [sees_of_open there, (orderly.held user opening there).1]

/-- Where a database can be opened, no store is open. -/
theorem not_isOpen_of_opened {after : Session} (taken : (workshop.session user).Opened opening after)
    (other : ι) : ¬workshop.IsOpen other := by
  -- An open store would hold the database, which was free.
  intro opened
  obtain ⟨earlier, there⟩ := Option.isSome_iff_exists.mp opened
  obtain ⟨place, held⟩ := orderly.held other earlier there
  have here : opening.location = earlier.location :=
    (taken.location.trans (orderly.located user)).trans place.symm
  obtain ⟨vault, found⟩ := Disk.exists_vault_of_isHeldBy _ held
  have free : vault.holder = none := taken.free vault (here ▸ found)
  rw [Disk.isHeldBy, found] at held
  simp [free] at held

theorem of_bare_eq {left : Workshop ι} (same : left.bare = workshop.bare) :
    left.Orderly location where
  located user := by
    rw [← orderly.located user]
    simp only [Session.location, session, stores_of_bare_eq same, workingDirectory_of_bare_eq same]
  told := stores_of_bare_eq same ▸ orderly.told
  held user opening opened := by
    rw [isHeldBy_of_bare_eq same]
    exact orderly.held user opening (stores_of_bare_eq same ▸ opened)
  single user other opened openedToo := orderly.single user other
    ((isOpen_of_bare_eq same user).mp opened) ((isOpen_of_bare_eq same other).mp openedToo)

/-- What is read does not matter to the stores. -/
theorem of_listings (listings : List (ι × Cursor)) :
    Orderly { workshop with listings } location where
  located := orderly.located
  told := orderly.told
  held := orderly.held
  single := orderly.single

variable [DecidableEq ι]

/-- Stores stay in order when one of them has been at work and no other one is open. -/
theorem resume {left : Session}
    (start : left.disk.files.workingDirectory = workshop.disk.files.workingDirectory)
    (path : left.store.path = (workshop.stores user).path)
    (logger : left.store.logger = (workshop.stores user).logger)
    (held : ∀ opening, left.store.opening = some opening →
      opening.location = location ∧ left.disk.isHeldBy opening = true)
    (alone : ∀ other, workshop.IsOpen other → other = user) :
    (workshop.resume user left).Orderly location := by
  have unchanged : ∀ other, other ≠ user →
      (workshop.resume user left).stores other = workshop.stores other :=
    fun other apart => Function.update_of_ne apart _ _
  have changed : (workshop.resume user left).stores user = left.store := Function.update_self ..
  have closed : ∀ other, other ≠ user → ¬(workshop.resume user left).IsOpen other := by
    intro other apart opened
    rw [IsOpen, unchanged other apart] at opened
    exact apart (alone other opened)
  constructor
  · intro other
    rw [← orderly.located other]
    have same : ((workshop.resume user left).stores other).path = (workshop.stores other).path := by
      by_cases self : other = user
      · rw [self, changed, path]
      · rw [unchanged other self]
    simp only [Session.location, session, Store.databasePath, same]
    exact congrArg _ start
  · intro other
    by_cases self : other = user
    · rw [self, changed, logger]
      exact orderly.told user
    · rw [unchanged other self]
      exact orderly.told other
  · intro other opening opened
    by_cases self : other = user
    · rw [self, changed] at opened
      exact held opening opened
    · exact absurd (Option.isSome_of_eq_some opened) (closed other self)
  · intro first second opened openedToo
    have isUser : ∀ other, (workshop.resume user left).IsOpen other → other = user :=
      fun other opened => Decidable.byContradiction fun apart => closed other apart opened
    exact (isUser first opened).trans (isUser second openedToo).symm

end Orderly

/-! ## Steps -/

/-- A store that has been at work is open if it was left so. -/
theorem isOpen_resume [DecidableEq ι] {workshop : Workshop ι} {user : ι} {left : Session} :
    (workshop.resume user left).IsOpen user ↔ left.store.opening.isSome = true := by
  have changed : (workshop.resume user left).stores user = left.store := Function.update_self ..
  rw [IsOpen, changed]

theorem stores_step_calls [DecidableEq ι] (workshop : Workshop ι) (hash : NameHash) (user : ι)
    (call : Call) : (workshop.step hash (.calls user call)).2.stores = workshop.stores := by
  have same : ((call.perform hash).left (workshop.session user)).store = workshop.stores user :=
    congrArg Prod.snd (Call.fixed_left hash call (workshop.session user))
  rw [step, resume, same]
  exact Function.update_eq_self user workshop.stores

/-- A step that reads a listing changes nothing but the listings. -/
theorem step_advances [DecidableEq ι] (workshop : Workshop ι) (hash : NameHash) (place : Nat) :
    ∃ listings, (workshop.step hash (.advances place)).2 = { workshop with listings } := by
  rw [step]
  cases workshop.listings[place]? with
  | none => exact ⟨workshop.listings, rfl⟩
  | some listing => exact ⟨_, rfl⟩

theorem disk_advances [DecidableEq ι] (workshop : Workshop ι) (hash : NameHash) (place : Nat) :
    (workshop.step hash (.advances place)).2.disk = workshop.disk := by
  obtain ⟨listings, run⟩ := step_advances workshop hash place
  rw [run]

section Steps

variable [DecidableEq ι] {workshop : Workshop ι} {user : ι} {handling : Handling} (hash : NameHash)

theorem step_calls_of_closed (closed : ¬workshop.IsOpen user) (call : Call) :
    workshop.step hash (.calls user call) = (.error .notOpen, workshop) := by
  have refused : call.perform hash (workshop.session user) =
      .error .notOpen (workshop.session user) :=
    Call.perform_of_closed (opening_of_not_isOpen closed) hash call
  rw [step, StoreM.outcome_error refused, StoreM.left_error refused, resume_session]
  rfl

theorem step_closes_of_closed (closes : handling.isOpening = false)
    (closed : ¬workshop.IsOpen user) :
    workshop.step hash (.handles user handling) = (.ok .done, workshop) := by
  have nothing : Store.closeStore (workshop.session user) = .ok () (workshop.session user) :=
    Store.closeStore_of_closed (opening_of_not_isOpen closed)
  rw [step, Handling.perform_of_closing closes, StoreM.outcome_ok nothing,
    StoreM.left_ok nothing, resume_session]
  rfl

/-- A listing of a store that is not open is over when its first element is asked for. -/
theorem step_advances_of_closed {place : Nat} {aspect : Aspect}
    (listed : workshop.listings[place]? = some (user, { aspect })) (closed : ¬workshop.IsOpen user) :
    workshop.step hash (.advances place) = (.error .notOpen, { workshop with
      listings := workshop.listings.set place (user, { aspect, progress := .finished }) }) := by
  simp only [step, listed, Cursor.next, opening_of_not_isOpen closed]
  rfl

namespace Orderly

variable {location : Location} (orderly : workshop.Orderly location)
include orderly

/-- A store is opened where no store is open, or it cannot be and only directories are made. -/
theorem step_opens (opens : handling.isOpening = true) :
    (∃ opening after, workshop.step hash (.handles user handling) =
          (.ok .done, workshop.resume user after) ∧
        (workshop.session user).Opened opening after) ∨
      ∃ cause left, workshop.step hash (.handles user handling) = (.error cause, left) ∧
        left.bare = workshop.bare := by
  have told : ∃ logger, (workshop.session user).store.logger = .logger logger := orderly.told user
  rw [step, Handling.perform_of_opening opens]
  rcases Store.openStore_cases told with
    ⟨opening, after, run, opened⟩ | ⟨cause, after, run, same⟩
  · rw [StoreM.outcome_ok run, StoreM.left_ok run]
    exact .inl ⟨opening, after, rfl, opened⟩
  · rw [StoreM.outcome_error run, StoreM.left_error run]
    refine .inr ⟨cause, _, rfl, ?_⟩
    calc (workshop.resume user after).bare
        = workshop.resume user after.bare := rfl
      _ = (workshop.resume user (workshop.session user)).bare := by rw [same]; rfl
      _ = workshop.bare := by rw [resume_session]

/-- An open store that is closed lets the database go. -/
theorem step_closes (closes : handling.isOpening = false) {opening : Opening}
    (opened : (workshop.stores user).opening = some opening) :
    ∃ journal, workshop.step hash (.handles user handling) = (.ok .done, workshop.resume user {
      disk := workshop.disk.release opening
      store := { workshop.stores user with opening := none }
      journal }) := by
  have there : (workshop.session user).store.opening = some opening := opened
  obtain ⟨journal, run⟩ := Store.closeStore_run there (orderly.told user)
  refine ⟨journal, ?_⟩
  rw [step, Handling.perform_of_closing closes, StoreM.outcome_ok run, StoreM.left_ok run]
  rfl

/-- An open store answers a call as the database does, and leaves of it what the call makes of it. -/
theorem step_calls (opened : workshop.IsOpen user) (call : Call) :
    (workshop.step hash (.calls user call)).1 =
        (((workshop.disk.contents location).serve hash (workshop.stores user).options.maxBatchSize
          call).map Prod.fst).map .answered ∧
      (workshop.step hash (.calls user call)).2.disk.contents location =
        (workshop.disk.contents location).afterCall hash
          (workshop.stores user).options.maxBatchSize call := by
  obtain ⟨opening, there⟩ := Option.isSome_iff_exists.mp opened
  obtain ⟨answers, _, holds, _⟩ := Call.perform_run (orderly.ready there) hash call
  rw [orderly.database_eq there] at answers holds
  rw [Session.database, (orderly.held user opening there).1] at holds
  exact ⟨congrArg (Except.map Reply.answered) answers, holds⟩

/-- **Every step keeps the stores in order.** -/
theorem step (step : Step ι) : (workshop.step hash step).2.Orderly location := by
  cases step with
  | handles user handling =>
      cases opens : handling.isOpening with
      | true =>
          rcases orderly.step_opens hash opens with
            ⟨opening, after, run, opened⟩ | ⟨cause, left, run, same⟩
          · rw [run]
            refine orderly.resume opened.workingDirectory (by rw [opened.store]; rfl)
              (by rw [opened.store]; rfl) (fun taken there => ?_)
              fun other otherOpen => absurd otherOpen (orderly.not_isOpen_of_opened opened other)
            rw [opened.store] at there
            cases there
            exact ⟨opened.location.trans (orderly.located user), opened.held⟩
          · rw [run]
            exact orderly.of_bare_eq same
      | false =>
          by_cases isOpen : workshop.IsOpen user
          · obtain ⟨opening, there⟩ := Option.isSome_iff_exists.mp isOpen
            obtain ⟨journal, run⟩ := orderly.step_closes hash opens there
            rw [run]
            refine orderly.resume ?_ rfl rfl (fun _ none => by cases none)
              fun other otherOpen => orderly.single other user otherOpen isOpen
            dsimp only
            rw [Disk.release]
            cases workshop.disk.vault? opening.location <;> rfl
          · rw [step_closes_of_closed hash opens isOpen]
            exact orderly
  | calls user call =>
      by_cases isOpen : workshop.IsOpen user
      · obtain ⟨opening, there⟩ := Option.isSome_iff_exists.mp isOpen
        obtain ⟨_, ready, _, _⟩ := Call.perform_run (orderly.ready there) hash call
        have fixed := Call.fixed_left hash call (workshop.session user)
        refine orderly.resume (congrArg (fun fixed => fixed.1.workingDirectory) fixed)
          (congrArg (fun fixed => fixed.2.path) fixed)
          (congrArg (fun fixed => fixed.2.logger) fixed) (fun taken still => ?_)
          fun other otherOpen => orderly.single other user otherOpen isOpen
        cases ready.opened.symm.trans still
        exact ⟨(orderly.held user opening there).1, ready.held⟩
      · rw [step_calls_of_closed hash isOpen]
        exact orderly
  | lists user aspect => exact orderly.of_listings _
  | advances place =>
      obtain ⟨listings, run⟩ := step_advances workshop hash place
      rw [run]
      exact orderly.of_listings listings

/-- A store that is called sees what the call makes of the database. -/
theorem sees_step_calls (opened : workshop.IsOpen user) (call : Call) :
    (workshop.step hash (.calls user call)).2.sees user =
      .ok ((workshop.disk.contents location).afterCall hash
        (workshop.stores user).options.maxBatchSize call) := by
  have stays : (workshop.step hash (.calls user call)).2.IsOpen user := by
    rwa [IsOpen, stores_step_calls]
  rw [(orderly.step hash _).sees_eq stays, (orderly.step_calls hash opened call).2]

theorem run (steps : List (Step ι)) : (workshop.run hash steps).Orderly location := by
  induction steps generalizing workshop with
  | nil => exact orderly
  | cons step rest ih => exact ih (orderly.step hash step)

end Orderly

end Steps

/-! ## The pairs that stores share -/

/-- The pairs that are left by a successful write, as the store that made it sees them. -/
def Visit.written? (visit : Visit ι) : Option Database :=
  match visit.step, visit.reply with
  | .calls user _, .ok (.answered answer) =>
      if answer.confirms then (visit.after.sees user).toOption else none
  | _, _ => none

namespace Orderly

variable [DecidableEq ι] {workshop : Workshop ι} {location : Location}
  (orderly : workshop.Orderly location) (hash : NameHash)
include orderly

/-- Only a successful write changes the pairs, to those that it leaves. -/
theorem contents_step (step : Step ι) : (workshop.step hash step).2.disk.contents location =
    (workshop.visit hash step).written?.getD (workshop.disk.contents location) := by
  cases step with
  | handles user handling =>
      have unwritten : (workshop.visit hash (.handles user handling)).written? = none := rfl
      rw [unwritten, Option.getD_none]
      cases opens : handling.isOpening with
      | true =>
          rcases orderly.step_opens hash opens with
            ⟨opening, after, run, opened⟩ | ⟨cause, left, run, same⟩
          · have place := opened.location.trans (orderly.located user)
            rw [run]
            exact place ▸ opened.contents
          · rw [run]
            exact contents_of_bare_eq same location
      | false =>
          by_cases isOpen : workshop.IsOpen user
          · obtain ⟨opening, there⟩ := Option.isSome_iff_exists.mp isOpen
            obtain ⟨journal, run⟩ := orderly.step_closes hash opens there
            rw [run]
            exact (orderly.held user opening there).1 ▸ Disk.contents_release
          · rw [step_closes_of_closed hash opens isOpen]
  | calls user call =>
      by_cases isOpen : workshop.IsOpen user
      · obtain ⟨answers, holds⟩ := orderly.step_calls hash isOpen call
        have seen := orderly.sees_step_calls hash isOpen call
        rw [holds, Visit.written?, visit, answers]
        dsimp only
        cases served : (workshop.disk.contents location).serve hash
            (workshop.stores user).options.maxBatchSize call with
        | error cause => exact Database.afterCall_error served
        | ok result =>
            obtain ⟨answer, changed⟩ := result
            rw [Database.afterCall_ok served] at seen ⊢
            cases confirms : answer.confirms with
            | false =>
                simp only [Except.map, confirms]
                exact Database.eq_of_serve served confirms
            | true =>
                simp only [Except.map, confirms, if_true, seen]
                rfl
      · rw [Visit.written?, visit, step_calls_of_closed hash isOpen]
        rfl
  | lists user aspect => rfl
  | advances place =>
      rw [disk_advances]
      rfl

/-- The pairs after steps are those that the last successful write among them has left. -/
theorem contents_run (steps : List (Step ι)) : (workshop.run hash steps).disk.contents location =
    ((visits hash steps workshop).filterMap Visit.written?).getLast?.getD
      (workshop.disk.contents location) := by
  induction steps generalizing workshop with
  | nil => rfl
  | cons step rest ih =>
      rw [run_cons, ih (orderly.step hash step), orderly.contents_step hash step, visits]
      cases written : (workshop.visit hash step).written? with
      | none => rw [List.filterMap_cons_none written, Option.getD_none]
      | some contents =>
          rw [List.filterMap_cons_some written, List.getLast?_cons, Option.getD_some,
            Option.getD_some]

end Orderly

/-! ## Stores with one path -/

/-- How a workshop goes on whose stores take turns with one database. -/
structure TakesTurns [DecidableEq ι] (workshop : Workshop ι) (hash : NameHash) : Prop where
  /-- At most one store is open. -/
  single : ∀ user other, workshop.IsOpen user → workshop.IsOpen other → user = other
  /-- An open store is answered as the database that it sees answers, and sees then what this
  makes of the database. -/
  answers : ∀ user call, workshop.IsOpen user → ∃ database, workshop.sees user = .ok database ∧
    (workshop.step hash (.calls user call)).1 = ((database.serve hash
      (workshop.stores user).options.maxBatchSize call).map Prod.fst).map .answered ∧
    (workshop.step hash (.calls user call)).2.sees user = .ok (database.afterCall hash
      (workshop.stores user).options.maxBatchSize call)
  /-- A store that is not open refuses every call, and nothing changes. -/
  refuses : ∀ user call, ¬workshop.IsOpen user →
    workshop.step hash (.calls user call) = (.error .notOpen, workshop)
  /-- A listing of a store that is not open is refused when its first element is asked for, and
  nothing changes but that this listing is over. -/
  lists : ∀ user place aspect, ¬workshop.IsOpen user →
    workshop.listings[place]? = some (user, { aspect }) →
      workshop.step hash (.advances place) = (.error .notOpen, { workshop with
        listings := workshop.listings.set place (user, { aspect, progress := .finished }) })
  /-- A store that has been closed is not open. -/
  closes : ∀ user handling, handling.isOpening = false →
    (workshop.step hash (.handles user handling)).1 = .ok .done ∧
      ¬(workshop.step hash (.handles user handling)).2.IsOpen user
  /-- When a store is closed that is not open, nothing changes. -/
  idles : ∀ user handling, handling.isOpening = false → ¬workshop.IsOpen user →
    workshop.step hash (.handles user handling) = (.ok .done, workshop)
  /-- A store that has been opened is open. -/
  opens : ∀ user handling, handling.isOpening = true →
    (workshop.step hash (.handles user handling)).1 = .ok .done →
      (workshop.step hash (.handles user handling)).2.IsOpen user
  /-- A store that is open cannot be opened. -/
  stays : ∀ user handling, handling.isOpening = true → workshop.IsOpen user →
    ∃ cause, (workshop.step hash (.handles user handling)).1 = .error cause
  /-- Where a store cannot be opened, nothing changes but that directories may be there now: the
  stores have the openings that they had and see the pairs that they saw. -/
  fails : ∀ user handling cause, handling.isOpening = true →
    (workshop.step hash (.handles user handling)).1 = .error cause →
      (workshop.step hash (.handles user handling)).2.bare = workshop.bare ∧
      (workshop.step hash (.handles user handling)).2.stores = workshop.stores ∧
        ∀ other, (workshop.step hash (.handles user handling)).2.sees other = workshop.sees other

theorem Orderly.takesTurns [DecidableEq ι] {workshop : Workshop ι} {location : Location}
    (orderly : workshop.Orderly location) (hash : NameHash) : workshop.TakesTurns hash where
  single := orderly.single
  answers user call opened :=
    ⟨_, orderly.sees_eq opened, (orderly.step_calls hash opened call).1,
      orderly.sees_step_calls hash opened call⟩
  refuses user call closed := step_calls_of_closed hash closed call
  lists user place aspect closed listed := step_advances_of_closed hash listed closed
  closes user handling closing := by
    by_cases opened : workshop.IsOpen user
    · obtain ⟨opening, there⟩ := Option.isSome_iff_exists.mp opened
      obtain ⟨journal, run⟩ := orderly.step_closes hash closing there
      rw [run, isOpen_resume]
      exact ⟨rfl, by simp⟩
    · rw [step_closes_of_closed hash closing opened]
      exact ⟨rfl, opened⟩
  idles user handling closing closed := step_closes_of_closed hash closing closed
  opens user handling opening done := by
    rcases orderly.step_opens hash opening with ⟨_, _, run, taken⟩ | ⟨_, _, run, _⟩
    · rw [run, isOpen_resume, taken.store]
      rfl
    · rw [run] at done
      cases done
  stays user handling opening opened := by
    rcases orderly.step_opens hash opening with ⟨_, _, _, taken⟩ | ⟨cause, _, run, _⟩
    · exact absurd opened (orderly.not_isOpen_of_opened taken user)
    · exact ⟨cause, by rw [run]⟩
  fails user handling cause opening failed := by
    rcases orderly.step_opens hash opening with ⟨_, _, run, _⟩ | ⟨_, left, run, same⟩
    · rw [run] at failed
      cases failed
    · rw [run]
      exact ⟨same, stores_of_bare_eq same, fun other => sees_of_bare_eq same other⟩

end Workshop

/-- The location of the database of the stores with a path. -/
def Path.databaseLocation (path : Path) (workingDirectory : Location) : Location :=
  (path.append [Store.directoryName, Store.databaseName]).destination workingDirectory

variable {ι : Type}

/-- Fresh stores with one path are in order: none of them is open. -/
theorem Workshop.orderly_ofOptions (path : Path) {options : ι → Options} (disk : Disk)
    (typed : ∀ user, (options user).free .logger = .null ∨
      ∃ logger, (options user).free .logger = .logger logger) :
    (ofOptions path options disk).Orderly (path.databaseLocation disk.files.workingDirectory) where
  located user := rfl
  told user := by
    rcases typed user with none | ⟨logger, given⟩
    · exact ⟨Store.defaultLogger, by simp only [ofOptions, Store.ofOptions, none]; rfl⟩
    · exact ⟨logger, by simp only [ofOptions, Store.ofOptions, given]; rfl⟩
  held user opening opened := by cases opened
  single user other opened := by cases opened

/-- **Stores that share a path take turns**, whatever their options and whatever is done with them
in which order, as long as their loggers are loggers.  What an open store sees is what the last
successful write has left, or what was there before if there has been none. -/
theorem stores_takeTurns [DecidableEq ι] (path : Path) {options : ι → Options} (disk : Disk)
    (typed : ∀ user, (options user).free .logger = .null ∨
      ∃ logger, (options user).free .logger = .logger logger)
    (hash : NameHash) (steps : List (Step ι)) :
    ((Workshop.ofOptions path options disk).run hash steps).TakesTurns hash ∧
      ∀ user, ((Workshop.ofOptions path options disk).run hash steps).IsOpen user →
        ((Workshop.ofOptions path options disk).run hash steps).sees user =
          .ok (((Workshop.visits hash steps (Workshop.ofOptions path options disk)).filterMap
            Workshop.Visit.written?).getLast?.getD
              (disk.contents (path.databaseLocation disk.files.workingDirectory))) := by
  have start := Workshop.orderly_ofOptions path disk typed
  refine ⟨(start.run hash steps).takesTurns hash, fun user opened => ?_⟩
  rw [(start.run hash steps).sees_eq opened, start.contents_run hash steps]
  rfl

/-- A disk without files. -/
def Disk.blank : Disk where
  files := { workingDirectory := [], nodes := [] }

/-- Options that may refuse a database that is there. -/
def Options.refusing (refuse : Bool) : Options :=
  Options.default.setFree .errorIfExists (.bool refuse)

theorem stores_takeTurns_reopened :
    let later := (Workshop.ofOptions { start := .workingDirectory, names := ["s"] } Options.refusing
      .blank).run (fun _ => .zeros) [.handles true .enters, .handles false .opens,
        .handles true .opens, .calls true (.put ⟨"a", [[1]]⟩), .handles true .leaves,
        .handles true .opens, .handles false .opens]
    later.TakesTurns (fun _ => .zeros) ∧ ∃ database, later.sees false = .ok database ∧
      database.pairs = [(Database.keyOf .zeros 0, [1, 97, 1, 1, 1])] := by
  intro later
  obtain ⟨turns, sees⟩ := stores_takeTurns { start := .workingDirectory, names := ["s"] } .blank
    (fun refuse => .inl (rfl : (Options.refusing refuse).free .logger = .null)) (fun _ => .zeros) _
  exact ⟨turns, _, sees false (by decide +kernel), by decide +kernel⟩

end Septet
