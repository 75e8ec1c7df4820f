import Septet.Proofs.Database.Records
import Septet.Proofs.Store.Sharing

/-!
# Listings beside writes

Stores whose database began without pairs keep it regular (`Orderly.regular_run`), so at
every moment it holds records, each under a name of its own.  A listing shows those that are
there when its first element is asked for (`Orderly.reads_of_fresh`), and keeps to them
whatever is done until its store is closed (`Orderly.step_other`, `Reads.readings`).

So names can be deleted while they are listed: each is there when it is shown, and none is
left at the end (`Orderly.sweep`).
-/

set_option autoImplicit false

namespace Septet

/-! ## What is left to be shown -/

namespace Listing

variable {aspect : Aspect} {pairs : List Pair}

/-- Nothing is shown of no pairs only. -/
theorem pairs_eq_nil (listed : ofPairs aspect pairs = ⟨[], none⟩) : pairs = [] := by
  cases pairs with
  | nil => rfl
  | cons pair rest =>
      rw [ofPairs] at listed
      cases shown : aspect.show? pair <;> rw [shown] at listed <;> cases listed

/-- What is shown first is shown of the first pair. -/
theorem exists_head {text : String} {texts : List String}
    (listed : ofPairs aspect pairs = ⟨text :: texts, none⟩) :
    ∃ pair rest, pairs = pair :: rest ∧ aspect.show? pair = .ok text ∧
      ofPairs aspect rest = ⟨texts, none⟩ := by
  cases pairs with
  | nil => cases listed
  | cons pair rest =>
      rw [ofPairs] at listed
      cases shown : aspect.show? pair with
      | error cause =>
          rw [shown] at listed
          cases listed
      | ok first =>
          rw [shown] at listed
          cases behind : ofPairs aspect rest with
          | mk texts failure =>
              rw [behind] at listed
              cases listed
              exact ⟨pair, rest, rfl, shown, behind⟩

end Listing

namespace Cursor

/-- A listing that has been started goes on to show texts through an opening. -/
def Shows (cursor : Cursor) (opening : Opening) (texts : List String) : Prop :=
  match cursor.progress with
  | .fresh => False
  | .reading through rest =>
      through = opening ∧ Listing.ofPairs cursor.aspect rest = ⟨texts, none⟩
  | .finished => texts = []

variable {opening : Opening} {texts : List String}

theorem advance_shows (opening : Opening) {aspect : Aspect} {pairs : List Pair}
    (listed : Listing.ofPairs aspect pairs = ⟨texts, none⟩) :
    ∃ progress, advance aspect opening pairs = (.ok texts.head?, progress) ∧
      Shows { aspect, progress } opening texts.tail := by
  cases texts with
  | nil =>
      cases Listing.pairs_eq_nil listed
      exact ⟨.finished, rfl, rfl⟩
  | cons text rest =>
      obtain ⟨pair, others, rfl, shown, behind⟩ := Listing.exists_head listed
      refine ⟨.reading opening others, ?_, rfl, behind⟩
      rw [advance, shown]
      rfl

/-- A listing that is started shows what there is at this moment. -/
theorem next_of_fresh {disk : Disk} {store : Store} {aspect : Aspect}
    (opened : store.opening = some opening)
    (listed : Listing.ofPairs aspect (disk.contents opening.location).pairs = ⟨texts, none⟩) :
    ∃ cursor, next disk store { aspect } = (.ok texts.head?, cursor) ∧
      cursor.Shows opening texts.tail := by
  obtain ⟨progress, run, shows⟩ := advance_shows opening listed
  refine ⟨{ aspect, progress }, ?_, shows⟩
  simp only [next, opened, run]

/-- A listing that has been started goes on while its opening holds the database, whatever there is
now. -/
theorem Shows.next {cursor : Cursor} (shows : cursor.Shows opening texts) {disk : Disk}
    (held : disk.isHeldBy opening = true) (store : Store) :
    ∃ after, cursor.next disk store = (.ok texts.head?, after) ∧ after.Shows opening texts.tail := by
  obtain ⟨aspect, progress⟩ := cursor
  cases progress with
  | fresh => cases shows
  | finished =>
      cases shows
      exact ⟨{ aspect, progress := .finished }, rfl, rfl⟩
  | reading through rest =>
      obtain ⟨rfl, listed⟩ := shows
      obtain ⟨progress, run, goesOn⟩ := advance_shows through listed
      refine ⟨{ aspect, progress }, ?_, goesOn⟩
      simp only [Cursor.next, held, if_true, run]

end Cursor

/-! ## Regular databases -/

namespace Database

variable {database after : Database} {hash : NameHash} {limit : Number} {bound : Nat}

theorem Regular.putMany (regular : database.Regular hash bound) {records : List Record}
    (taken : database.putMany hash limit records = .ok after)
    (fits : ∀ record ∈ records, record.Fits) (enough : bound + records.length ≤ 2 ^ 64) :
    after.Regular hash (bound + records.length) := by
  cases within : limit.lessThan records.length with
  | true =>
      rw [Database.putMany, if_pos within] at taken
      cases taken
  | false =>
      obtain ⟨written, each, regularThen⟩ := regular.exists_writeEach records enough fits
      have same := (putMany_eq_writeEach within fits
        fun record _ => regular.hasRoom enough (hash record.name)).trans each
      cases taken.symm.trans same
      exact regularThen

theorem Regular.delete (regular : database.Regular hash bound) {name : String} {existed : Bool}
    (erased : database.delete hash name = .ok (existed, after)) : after.Regular hash bound := by
  rw [Database.delete] at erased
  cases found : database.find hash name with
  | error cause =>
      rw [found] at erased
      cases erased
  | ok result =>
      rw [found] at erased
      cases result with
      | none =>
          cases erased
          exact regular
      | some there =>
          cases erased
          exact regular.erase there.key

/-- A call that is served keeps a database regular, and takes the bound up by what it writes. -/
theorem Regular.serve (regular : database.Regular hash bound) {call : Call} {answer : Answer}
    (served : database.serve hash limit call = .ok (answer, after))
    (fits : ∀ record ∈ call.records, record.Fits) (enough : bound + call.records.length ≤ 2 ^ 64) :
    after.Regular hash (bound + call.records.length) := by
  rcases serve_cases served with ⟨_, taken⟩ | ⟨name, _, rfl, _, erased⟩ | ⟨_, none, rfl⟩
  · exact regular.putMany taken fits enough
  · exact regular.delete erased
  · rw [none]
    exact regular

end Database

namespace Workshop

variable {ι : Type}

/-- The records that are written at a visit. -/
def Visit.records (visit : Visit ι) : List Record :=
  match visit.step, visit.reply with
  | .calls _ call, .ok _ => call.records
  | _, _ => []

variable [DecidableEq ι] {workshop : Workshop ι} {location : Location} {hash : NameHash}

namespace Orderly

variable (orderly : workshop.Orderly location)
include orderly

/-- A step keeps the database regular, and takes the bound up by what it writes. -/
theorem regular_step {bound : Nat}
    (regular : (workshop.disk.contents location).Regular hash bound) (step : Step ι)
    (fits : ∀ record ∈ (workshop.visit hash step).records, record.Fits)
    (enough : bound + (workshop.visit hash step).records.length ≤ 2 ^ 64) :
    ((workshop.step hash step).2.disk.contents location).Regular hash
      (bound + (workshop.visit hash step).records.length) := by
  cases step with
  | handles user handling =>
      have unchanged : (workshop.step hash (.handles user handling)).2.disk.contents location =
          workshop.disk.contents location := orderly.contents_step hash _
      rw [unchanged]
      exact regular
  | calls user call =>
      by_cases isOpen : workshop.IsOpen user
      · obtain ⟨answers, holds⟩ := orderly.step_calls hash isOpen call
        simp only [Visit.records, visit, answers] at fits enough ⊢
        rw [holds]
        cases served : (workshop.disk.contents location).serve hash
            (workshop.stores user).options.maxBatchSize call with
        | error cause =>
            rw [Database.afterCall_error served]
            exact regular
        | ok result =>
            obtain ⟨answer, after⟩ := result
            rw [served] at fits enough
            rw [Database.afterCall_ok served]
            exact regular.serve served fits enough
      · have refused := step_calls_of_closed hash isOpen call
        simp only [Visit.records, visit, refused]
        exact regular
  | lists user aspect => exact regular
  | advances place =>
      rw [disk_advances]
      exact regular

/-- **Steps keep the database regular**, with a bound as great as the number of records that they
write. -/
theorem regular_run (steps : List (Step ι)) {bound : Nat}
    (regular : (workshop.disk.contents location).Regular hash bound)
    (fits : ∀ visit ∈ visits hash steps workshop, ∀ record ∈ visit.records, record.Fits)
    (enough : bound + ((visits hash steps workshop).map fun visit => visit.records.length).sum ≤
      2 ^ 64) :
    ((workshop.run hash steps).disk.contents location).Regular hash
      (bound + ((visits hash steps workshop).map fun visit => visit.records.length).sum) := by
  induction steps generalizing workshop bound with
  | nil => exact regular
  | cons step rest ih =>
      obtain ⟨fitsHere, fitsLater⟩ := List.forall_mem_cons.mp fits
      rw [visits, List.map_cons, List.sum_cons, ← Nat.add_assoc] at enough ⊢
      have once := orderly.regular_step regular step fitsHere (by omega)
      exact ih (orderly.step hash step) once fitsLater enough

end Orderly

/-! ## Listings that have been started -/

/-- What is answered at a visit that reads a listing. -/
def Visit.reading? (place : Nat) (visit : Visit ι) : Option (Except StoreError Reply) :=
  match visit.step with
  | .advances other => if other = place then some visit.reply else none
  | _ => none

/-- A listing of an open store has been started and goes on to show texts. -/
structure Reads (workshop : Workshop ι) (user : ι) (place : Nat) (opening : Opening)
    (texts : List String) : Prop where
  opened : (workshop.stores user).opening = some opening
  listed : ∃ cursor, workshop.listings[place]? = some (user, cursor) ∧ cursor.Shows opening texts

/-- A listing shows the first of some texts next, and goes on to show the others. -/
structure Asks (workshop : Workshop ι) (hash : NameHash) (user : ι) (place : Nat)
    (opening : Opening) (texts : List String) : Prop where
  answered : (workshop.step hash (.advances place)).1 = .ok (.shown texts.head?)
  goesOn : (workshop.step hash (.advances place)).2.Reads user place opening texts.tail

section Reading

variable {user : ι} {place : Nat} {opening : Opening} {texts : List String}

/-- A listing is asked for its next element where it stands. -/
theorem asks_of_next {cursor after : Cursor}
    (opened : (workshop.stores user).opening = some opening)
    (listed : workshop.listings[place]? = some (user, cursor))
    (next : cursor.next workshop.disk (workshop.stores user) = (.ok texts.head?, after))
    (shows : after.Shows opening texts.tail) : workshop.Asks hash user place opening texts := by
  have inside : place < workshop.listings.length := (List.getElem?_eq_some_iff.mp listed).1
  have run : workshop.step hash (.advances place) = (.ok (.shown texts.head?), { workshop with
      listings := workshop.listings.set place (user, after) }) := by
    simp only [step, listed, next]
    rfl
  constructor
  · rw [run]
  · rw [run]
    exact ⟨opened, after, List.getElem?_set_self inside, shows⟩

/-- **A listing that is started shows what the database holds at this moment.** -/
theorem asks_of_fresh {aspect : Aspect} (opened : (workshop.stores user).opening = some opening)
    (fresh : workshop.listings[place]? = some (user, { aspect }))
    (listed : Listing.ofPairs aspect (workshop.disk.contents opening.location).pairs =
      ⟨texts, none⟩) : workshop.Asks hash user place opening texts := by
  obtain ⟨cursor, next, shows⟩ := Cursor.next_of_fresh opened listed
  exact asks_of_next opened fresh next shows

namespace Orderly

variable (orderly : workshop.Orderly location)
include orderly

theorem asks (reads : workshop.Reads user place opening texts) :
    workshop.Asks hash user place opening texts := by
  obtain ⟨cursor, listed, shows⟩ := reads.listed
  have held := (orderly.held user opening reads.opened).2
  obtain ⟨after, next, goesOn⟩ := shows.next held (workshop.stores user)
  exact asks_of_next reads.opened listed next goesOn

/-- A store stays open until it is closed. -/
theorem stores_step (opened : workshop.IsOpen user) {step : Step ι}
    (stays : ∀ handling, step = .handles user handling → handling.isOpening = true) :
    (workshop.step hash step).2.stores = workshop.stores := by
  cases step with
  | handles other handling =>
      cases opens : handling.isOpening with
      | true =>
          rcases orderly.step_opens hash opens with ⟨_, _, _, taken⟩ | ⟨_, left, run, same⟩
          · exact absurd opened (orderly.not_isOpen_of_opened taken user)
          · rw [run]
            exact stores_of_bare_eq same
      | false =>
          have closed : ¬workshop.IsOpen other := by
            intro otherOpen
            cases orderly.single other user otherOpen opened
            cases opens.symm.trans (stays handling rfl)
          rw [step_closes_of_closed hash opens closed]
  | calls other call => exact stores_step_calls workshop hash other call
  | lists other aspect => rfl
  | advances other =>
      obtain ⟨listings, run⟩ := step_advances workshop hash other
      rw [run]

end Orderly

/-- A listing stays as it is while it is not read. -/
theorem getElem?_listings_step {listing : ι × Cursor}
    (listed : workshop.listings[place]? = some listing) {step : Step ι}
    (other : step ≠ .advances place) :
    (workshop.step hash step).2.listings[place]? = some listing := by
  cases step with
  | handles user handling => exact listed
  | calls user call => exact listed
  | lists user aspect =>
      have inside : place < workshop.listings.length := (List.getElem?_eq_some_iff.mp listed).1
      exact (List.getElem?_append_left inside).trans listed
  | advances elsewhere =>
      have apart : elsewhere ≠ place := fun same => other (congrArg Step.advances same)
      rw [Workshop.step]
      cases workshop.listings[elsewhere]? with
      | none => exact listed
      | some found => exact (List.getElem?_set_ne apart).trans listed

/-- What a listing goes on to show does not depend on what is done in the meantime. -/
theorem Orderly.reads_step (orderly : workshop.Orderly location)
    (reads : workshop.Reads user place opening texts) {step : Step ι}
    (other : step ≠ .advances place)
    (stays : ∀ handling, step = .handles user handling → handling.isOpening = true) :
    (workshop.step hash step).2.Reads user place opening texts where
  opened := by
    rw [orderly.stores_step (Option.isSome_of_eq_some reads.opened) stays]
    exact reads.opened
  listed := by
    obtain ⟨cursor, listed, shows⟩ := reads.listed
    exact ⟨cursor, getElem?_listings_step listed other, shows⟩

/-- The first answer to a listing, and those to what is left of it. -/
theorem Asks.readings (asks : workshop.Asks hash user place opening texts) (rest : List (Step ι))
    (others : ∀ (k : Nat) (reply : Except StoreError Reply),
      ((visits hash rest (workshop.step hash (.advances place)).2).filterMap
        (Visit.reading? place))[k]? = some reply → reply = .ok (.shown texts.tail[k]?)) :
    ∀ (k : Nat) (reply : Except StoreError Reply),
      ((visits hash (.advances place :: rest) workshop).filterMap
        (Visit.reading? place))[k]? = some reply → reply = .ok (.shown texts[k]?) := by
  have first : (workshop.visit hash (.advances place)).reading? place =
      some (.ok (.shown texts.head?)) := by
    rw [← asks.answered]
    exact if_pos rfl
  intro k reply answered
  rw [visits, List.filterMap_cons_some first] at answered
  cases k with
  | zero =>
      cases answered
      rw [List.head?_eq_getElem?]
  | succ k =>
      rw [List.getElem?_cons_succ] at answered
      rw [others k reply answered, List.getElem?_tail]

/-- **A listing that has been started is answered by its texts in order**, and by nothing when they
have all been shown. -/
theorem Orderly.readings (orderly : workshop.Orderly location)
    (reads : workshop.Reads user place opening texts) (steps : List (Step ι))
    (stays : ∀ handling, .handles user handling ∈ steps → handling.isOpening = true) :
    ∀ (k : Nat) (reply : Except StoreError Reply),
      ((visits hash steps workshop).filterMap (Visit.reading? place))[k]? = some reply →
        reply = .ok (.shown texts[k]?) := by
  -- Only a reading takes a text away; every other step leaves the listing where it is.
  induction steps generalizing workshop texts with
  | nil =>
      intro k reply answered
      cases answered
  | cons step rest ih =>
      have staysThen : ∀ handling, .handles user handling ∈ rest → handling.isOpening = true :=
        fun handling member => stays handling (List.mem_cons_of_mem _ member)
      have staysNow : ∀ handling, step = .handles user handling → handling.isOpening = true :=
        fun handling same => stays handling (same ▸ List.mem_cons_self)
      have later := orderly.step hash step
      rcases Classical.em (step = .advances place) with rfl | other
      · have asks : workshop.Asks hash user place opening texts := orderly.asks reads
        exact asks.readings rest (ih later asks.goesOn staysThen)
      · have none : (workshop.visit hash step).reading? place = none := by
          cases step with
          | advances elsewhere => exact if_neg fun same => other (congrArg Step.advances same)
          | _ => rfl
        rw [visits, List.filterMap_cons_none none]
        exact ih later (orderly.reads_step reads other staysNow) staysThen

/-! ## Deleting what is listed -/

/-- The steps that read a listing to its end and delete every name that it shows. -/
def sweeping (user : ι) (place : Nat) : List String → List (Step ι)
  | [] => [.advances place]
  | name :: rest => .advances place :: .calls user (.delete name) :: sweeping user place rest

/-- What these steps are answered when every name that is shown is there. -/
def swept : List String → List (Except StoreError Reply)
  | [] => [.ok (.shown none)]
  | name :: rest => .ok (.shown (some name)) :: .ok (.answered (.deleted true)) :: swept rest

variable (hash) in
/-- The name that a listing shows first is deleted, and the rest of what it shows is left. -/
theorem Orderly.delete_shown (orderly : workshop.Orderly location) (opened : workshop.IsOpen user)
    {name : String} {rest : List String} {bound : Nat}
    (regular : (workshop.disk.contents location).Regular hash bound)
    (listed : Listing.ofPairs .name (workshop.disk.contents location).pairs =
      ⟨name :: rest, none⟩) :
    (workshop.step hash (.calls user (.delete name))).1 = .ok (.answered (.deleted true)) ∧
      ((workshop.step hash (.calls user (.delete name))).2.disk.contents location).Regular hash
        bound ∧
      Listing.ofPairs .name
          ((workshop.step hash (.calls user (.delete name))).2.disk.contents location).pairs =
        ⟨rest, none⟩ := by
  obtain ⟨pair, others, pairs, shown, behind⟩ := Listing.exists_head listed
  obtain ⟨record, holds, rfl⟩ : ∃ record, Record.decode pair.2 = .ok record ∧
      record.name = name := by
    rw [Aspect.show?] at shown
    cases decoded : Record.decode pair.2 with
    | error cause =>
        rw [decoded] at shown
        cases shown
    | ok record =>
        rw [decoded] at shown
        exact ⟨record, rfl, Except.ok.inj shown⟩
  obtain ⟨left, erased, leftPairs, leftRegular⟩ := regular.delete_head pairs holds
  have served : (workshop.disk.contents location).serve hash
      (workshop.stores user).options.maxBatchSize (.delete record.name) =
        .ok (.deleted true, left) := by
    rw [Database.serve, erased]
    rfl
  obtain ⟨answers, holds⟩ := orderly.step_calls hash opened (.delete record.name)
  rw [Database.afterCall_ok served] at holds
  rw [answers, served, holds, leftPairs]
  exact ⟨rfl, leftRegular, behind⟩

/-- **Every name is there when it is deleted as it is shown**, and none is left at the end. -/
theorem Orderly.sweep (names : List String) {workshop : Workshop ι} {bound : Nat}
    (orderly : workshop.Orderly location) (asks : workshop.Asks hash user place opening names)
    (regular : (workshop.disk.contents location).Regular hash bound)
    (listed : Listing.ofPairs .name (workshop.disk.contents location).pairs = ⟨names, none⟩) :
    (visits hash (sweeping user place names) workshop).map Visit.reply = swept names ∧
      ∃ left, (workshop.run hash (sweeping user place names)).sees user = .ok left ∧
        left.pairs = [] := by
  induction names generalizing workshop with
  | nil =>
      have isOpen := Option.isSome_of_eq_some asks.goesOn.opened
      refine ⟨congrArg (fun reply => [reply]) asks.answered, workshop.disk.contents location, ?_,
        Listing.pairs_eq_nil listed⟩
      rw [← disk_advances workshop hash place]
      exact (orderly.step hash _).sees_eq isOpen
  | cons name rest ih =>
      -- The listing is read, then the name that it has shown is deleted.
      have middle := orderly.step hash (.advances place)
      have isOpen := Option.isSome_of_eq_some asks.goesOn.opened
      rw [← disk_advances workshop hash place] at regular listed
      obtain ⟨deleted, regularThen, listedThen⟩ := middle.delete_shown hash isOpen regular listed
      have reads : ((workshop.step hash (.advances place)).2.step hash
          (.calls user (.delete name))).2.Reads user place opening rest :=
        middle.reads_step asks.goesOn (fun same => by cases same)
          fun handling same => by cases same
      have later := middle.step hash (.calls user (.delete name))
      obtain ⟨replies, left, sees, none⟩ := ih later (later.asks reads) regularThen listedThen
      refine ⟨?_, left, sees, none⟩
      rw [sweeping, visits, visits, List.map_cons, List.map_cons, replies]
      exact congrArg₂ (fun first second => first :: second :: swept rest) asks.answered deleted

end Reading

/-! ## Listings of stores whose database began without pairs -/

/-- What an open store shows of the records that it holds. -/
structure Shows (workshop : Workshop ι) (hash : NameHash) (user : ι) (entries : List Entry) :
    Prop where
  /-- The store holds these records now. -/
  holds : ∃ database, workshop.sees user = .ok database ∧ database.Holds hash entries
  /-- A listing that is started now shows them in order, and then nothing, whatever is done before
  it is read again, as long as the store is not closed. -/
  shows : ∀ place aspect after, workshop.listings[place]? = some (user, { aspect }) →
    (∀ handling, .handles user handling ∈ after → handling.isOpening = true) →
      ∀ (k : Nat) (reply : Except StoreError Reply),
        ((visits hash (.advances place :: after) workshop).filterMap
          (Visit.reading? place))[k]? = some reply →
            reply = .ok (.shown (entries.map fun entry => entry.text hash aspect)[k]?)
  /-- When the names are listed now and each is deleted as it is shown, each is there, and nothing is
  left. -/
  sweeps : ∀ names, names = entries.map (fun entry => entry.record.name) →
    let steps := .lists user .name :: sweeping user workshop.listings.length names
    (visits hash steps workshop).map Visit.reply = .ok .done :: swept names ∧
      ∃ left, (workshop.run hash steps).sees user = .ok left ∧ left.pairs = []

/-- Where the database is regular, an open store shows the records that it holds. -/
theorem Orderly.exists_shows (orderly : workshop.Orderly location) {user : ι} {bound : Nat}
    (opened : workshop.IsOpen user)
    (regular : (workshop.disk.contents location).Regular hash bound) (small : bound ≤ 2 ^ 64) :
    ∃ entries, workshop.Shows hash user entries := by
  obtain ⟨opening, there⟩ := Option.isSome_iff_exists.mp opened
  have place := (orderly.held user opening there).1
  obtain ⟨entries, holds, listed⟩ := regular.exists_holds small
  refine ⟨entries, ⟨_, orderly.sees_eq opened, holds⟩, ?_, ?_⟩
  · intro place aspect after fresh stays
    have asks : workshop.Asks hash user place opening
        (entries.map fun entry => entry.text hash aspect) :=
      asks_of_fresh there fresh (by rw [(orderly.held user opening there).1]; exact listed aspect)
    exact asks.readings after ((orderly.step hash _).readings asks.goesOn after stays)
  · rintro _ rfl
    have first := orderly.step hash (.lists user .name)
    have asks : (workshop.step hash (.lists user .name)).2.Asks hash user workshop.listings.length
        opening (entries.map fun entry => entry.record.name) :=
      asks_of_fresh there List.getElem?_concat_length (by rw [place]; exact listed .name)
    obtain ⟨replies, left⟩ := first.sweep _ asks regular (listed .name)
    exact ⟨congrArg (List.cons _) replies, left⟩

end Workshop

variable {ι : Type}

/-- **A listing shows the records that there are when its first element is asked for**, each once and
in the order of the keys, whatever is written or deleted before and afterwards; so all names can be
deleted while they are listed.  This holds of all stores whose database began without pairs, under
any hash and at every moment before more than two to the 64th records have been written. -/
theorem listings_show_moment [DecidableEq ι] (path : Path) {options : ι → Options} (disk : Disk)
    (typed : ∀ user, (options user).free .logger = .null ∨
      ∃ logger, (options user).free .logger = .logger logger)
    (empty : (disk.contents (path.databaseLocation disk.files.workingDirectory)).pairs = [])
    (hash : NameHash) (steps : List (Step ι))
    (fits : ∀ visit ∈ Workshop.visits hash steps (Workshop.ofOptions path options disk),
      ∀ record ∈ visit.records, record.Fits)
    (countable : ((Workshop.visits hash steps (Workshop.ofOptions path options disk)).map
      fun visit => visit.records.length).sum ≤ 2 ^ 64) {user : ι}
    (opened : ((Workshop.ofOptions path options disk).run hash steps).IsOpen user) :
    ∃ entries, ((Workshop.ofOptions path options disk).run hash steps).Shows hash user entries := by
  have start := Workshop.orderly_ofOptions path disk typed
  have regular := start.regular_run steps (Database.regular_of_pairs_eq_nil empty hash) fits
    (by rwa [Nat.zero_add])
  exact (start.run hash steps).exists_shows opened regular (by rwa [Nat.zero_add])

/-- Names are listed between a deletion and a write, and from a store that is entered twice. -/
theorem listings_show_moment_sharedHash :
    ∃ entries, ((Workshop.ofOptions { start := .workingDirectory, names := ["s"] } Options.refusing
      .blank).run (fun _ => .zeros) [.handles false .enters,
        .calls false (.putMany [⟨"a", [[1]]⟩, ⟨"b", []⟩]), .lists false .name,
        .calls false (.delete "a"), .handles false .enters,
        .calls false (.put ⟨"c", []⟩)]).Shows (fun _ => .zeros) false entries :=
  listings_show_moment _ .blank (fun _ => .inl rfl) rfl _ _ (by decide +kernel) (by decide +kernel)
    (by decide +kernel)

end Septet
