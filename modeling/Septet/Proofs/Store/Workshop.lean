import Mathlib.Logic.Function.Basic
import Septet.Proofs.Store.Service
import Septet.Store.Cursor

/-!
# Workshops

A workshop is a disk with the stores that use it and the listings that are being read
from them.  It goes on in steps: a store is opened or closed, is called, or is asked
for a listing, or the next element of a listing is read.  Every step is answered and
leaves the workshop in some state, also when it fails, and what a run meets at its steps
is kept (`Workshop.visits`).

Only steps that handle or call a store change the disk, and they change nothing but the
disk, the journal and that store.
-/

set_option autoImplicit false

namespace Septet

/-! ## Steps -/

/-- How a store is handled.  It may be opened and closed by itself, or entered and left. -/
inductive Handling where
  | opens
  | enters
  | closes
  | leaves
  deriving DecidableEq

namespace Handling

/-- Whether a store is to be open afterwards. -/
def isOpening : Handling → Bool
  | opens | enters => true
  | closes | leaves => false

def perform : Handling → StoreM Unit
  | opens | enters => Store.openStore
  | closes | leaves => Store.closeStore

theorem perform_of_opening {handling : Handling} (opens : handling.isOpening = true) :
    handling.perform = Store.openStore := by
  cases handling with
  | opens | enters => rfl
  | closes | leaves => cases opens

theorem perform_of_closing {handling : Handling} (closes : handling.isOpening = false) :
    handling.perform = Store.closeStore := by
  cases handling with
  | opens | enters => cases closes
  | closes | leaves => rfl

end Handling

/-- What can be done in a workshop; listings are known by their places in the order in which they
were asked for. -/
inductive Step (ι : Type) where
  | handles (user : ι) (handling : Handling)
  | calls (user : ι) (call : Call)
  | lists (user : ι) (aspect : Aspect)
  | advances (place : Nat)

/-- What a step can be answered. -/
inductive Reply where
  | done
  | answered (answer : Answer)
  /-- The next element of a listing, or nothing at its end. -/
  | shown (element : Option String)

/-! ## Workshops -/

/-- A disk with the stores that use it, and the listings that are being read from them. -/
structure Workshop (ι : Type) where
  disk : Disk
  stores : ι → Store
  /-- The listings, each with the store that it was asked from. -/
  listings : List (ι × Cursor) := []
  journal : Journal := []

/-- What a run meets at one of its steps. -/
structure Workshop.Visit (ι : Type) where
  before : Workshop ι
  step : Step ι
  reply : Except StoreError Reply
  after : Workshop ι

namespace Workshop

variable {ι : Type}

/-- A store at work on the disk. -/
def session (workshop : Workshop ι) (user : ι) : Session where
  disk := workshop.disk
  store := workshop.stores user
  journal := workshop.journal

def IsOpen (workshop : Workshop ι) (user : ι) : Prop :=
  (workshop.stores user).opening.isSome = true

instance (workshop : Workshop ι) (user : ι) : Decidable (workshop.IsOpen user) :=
  inferInstanceAs (Decidable (_ = true))

/-- The pairs that an open store reads. -/
def sees (workshop : Workshop ι) (user : ι) : Except StoreError Database :=
  Store.contents.outcome (workshop.session user)

variable [DecidableEq ι]

/-- The workshop after a store has been at work. -/
def resume (workshop : Workshop ι) (user : ι) (session : Session) : Workshop ι :=
  { workshop with
    disk := session.disk
    stores := Function.update workshop.stores user session.store
    journal := session.journal }

/-- What a step is answered, and the workshop after it. -/
def step (workshop : Workshop ι) (hash : NameHash) :
    Step ι → Except StoreError Reply × Workshop ι
  | .handles user handling =>
      ((handling.perform.outcome (workshop.session user)).map fun _ => .done,
        workshop.resume user (handling.perform.left (workshop.session user)))
  | .calls user call =>
      (((call.perform hash).outcome (workshop.session user)).map .answered,
        workshop.resume user ((call.perform hash).left (workshop.session user)))
  | .lists user aspect =>
      (.ok .done, { workshop with listings := workshop.listings ++ [(user, { aspect })] })
  | .advances place =>
      match workshop.listings[place]? with
      | none => (.ok (.shown none), workshop)
      | some (user, cursor) =>
          let (answer, cursor) := cursor.next workshop.disk (workshop.stores user)
          (answer.map .shown,
            { workshop with listings := workshop.listings.set place (user, cursor) })

/-- The workshop after steps; it goes on after a failure. -/
def run (workshop : Workshop ι) (hash : NameHash) (steps : List (Step ι)) : Workshop ι :=
  steps.foldl (fun workshop step => (workshop.step hash step).2) workshop

/-- The visit of one step. -/
def visit (workshop : Workshop ι) (hash : NameHash) (step : Step ι) : Visit ι where
  before := workshop
  step := step
  reply := (workshop.step hash step).1
  after := (workshop.step hash step).2

/-- What a run meets at its steps, one after the other. -/
def visits (hash : NameHash) : List (Step ι) → Workshop ι → List (Visit ι)
  | [], _ => []
  | step :: steps, workshop =>
      workshop.visit hash step :: visits hash steps (workshop.step hash step).2

theorem run_cons (workshop : Workshop ι) (hash : NameHash) (step : Step ι) (steps : List (Step ι)) :
    workshop.run hash (step :: steps) = (workshop.step hash step).2.run hash steps := rfl

/-- A store that is left as it was leaves the workshop as it was. -/
theorem resume_session (workshop : Workshop ι) (user : ι) :
    workshop.resume user (workshop.session user) = workshop := by
  unfold resume session
  rw [Function.update_eq_self]

/-- The workshop of fresh stores with a path, each with options of its own. -/
def ofOptions (path : Path) (options : ι → Options) (disk : Disk) : Workshop ι where
  disk
  stores := fun user => Store.ofOptions path (options user)

end Workshop

end Septet
