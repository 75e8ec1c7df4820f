import Mathlib.Logic.Function.Basic
import Septet.Proofs.Database.Regular
import Septet.Proofs.Store.Session

/-!
# Stores answer as catalogues do

A catalogue is what a store is to those who use it: the fields of every name that has
a record (`Catalogue`).  It tells what a call is answered (`Catalogue.Answers`) and
what the catalogue is from then on (`Catalogue.after`).

A store whose database began without pairs keeps a catalogue: its database is regular
and the fields that it finds are those of the catalogue (`Session.Keeps`).  Every
call keeps it so and is answered as the catalogue has it (`Keeps.call`), and therefore
any number of calls, whichever names have the same hash (`answers_eq_catalogue`).
-/

set_option autoImplicit false

namespace Septet

/-! ## Calls -/

/-- What an open store can be asked for. -/
inductive Call where
  | get (name : String)
  | put (record : Record)
  | putMany (records : List Record)
  | delete (name : String)
  | names

/-- What a call can be answered. -/
inductive Answer where
  | fields (found : Option (List Bytes))
  | written
  | deleted (existed : Bool)
  | names (shown : List String)

namespace Call

/-- The records that a call gives to be written. -/
def records : Call → List Record
  | put record => [record]
  | putMany records => records
  | get _ | delete _ | names => []

/-- The number of records that a call writes if batches have a limit. -/
def count (limit : Number) (call : Call) : Nat :=
  if limit.lessThan call.records.length then 0 else call.records.length

theorem count_of_records_eq_nil {call : Call} (none : call.records = []) (limit : Number) :
    call.count limit = 0 := by
  rw [count, none, List.length_nil, ite_self]

/-- What a store does when it is called; the names are read to their end. -/
def perform (hash : NameHash) : Call → StoreM Answer
  | get name => do
      let found ← Store.fieldsOf hash name
      pure (.fields found)
  | put record => do
      Store.put hash record
      pure .written
  | putMany records => do
      Store.putMany hash records
      pure .written
  | delete name => do
      let existed ← Store.delete hash name
      pure (.deleted existed)
  | names => do
      let listing ← Store.list .name
      match listing.failure with
      | none => pure (.names listing.shown)
      | some cause => throw (.record cause)

end Call

/-- What a store answers to calls one after the other; it goes on after a failure. -/
def Session.answers (hash : NameHash) : List Call → Session → List (Except StoreError Answer)
  | [], _ => []
  | call :: rest, session =>
      (call.perform hash).outcome session :: answers hash rest ((call.perform hash).left session)

/-! ## Catalogues -/

/-- The fields of the names that have a record. -/
abbrev Catalogue := String → Option (List Bytes)

namespace Catalogue

def empty : Catalogue := fun _ => none

def write (catalogue : Catalogue) (record : Record) : Catalogue :=
  Function.update catalogue record.name (some record.fields)

def writeAll (catalogue : Catalogue) (records : List Record) : Catalogue :=
  records.foldl write catalogue

/-- The catalogue after a call; a batch that is too long changes nothing. -/
def after (limit : Number) (catalogue : Catalogue) : Call → Catalogue
  | .put record => if limit.lessThan 1 then catalogue else catalogue.write record
  | .putMany records =>
      if limit.lessThan records.length then catalogue else catalogue.writeAll records
  | .delete name => Function.update catalogue name none
  | .get _ | .names => catalogue

/-- A batch of a length is taken or refused. -/
def confirmation (limit : Number) (length : Nat) : Except StoreError Answer :=
  if limit.lessThan length then .error (.batch (.tooMany length limit)) else .ok .written

/-- The right answer to a call; the names may come in any order. -/
def Answers (limit : Number) (catalogue : Catalogue) : Call → Except StoreError Answer → Prop
  | .get name, answer => answer = .ok (.fields (catalogue name))
  | .put _, answer => answer = confirmation limit 1
  | .putMany records, answer => answer = confirmation limit records.length
  | .delete name, answer => answer = .ok (.deleted (catalogue name).isSome)
  | .names, answer => ∃ shown, answer = .ok (.names shown) ∧ shown.Nodup ∧
      ∀ name, name ∈ shown ↔ (catalogue name).isSome

/-- The right answers to calls one after the other. -/
inductive Explains (limit : Number) :
    Catalogue → List Call → List (Except StoreError Answer) → Prop where
  | nil (catalogue : Catalogue) : Explains limit catalogue [] []
  | cons {catalogue : Catalogue} {call : Call} {answer : Except StoreError Answer}
      {calls : List Call} {answers : List (Except StoreError Answer)} :
      catalogue.Answers limit call answer →
        Explains limit (catalogue.after limit call) calls answers →
          Explains limit catalogue (call :: calls) (answer :: answers)

/-- A name has the fields that were written last, or else those that it had. -/
theorem writeAll_apply (records : List Record) (name : String) : ∀ catalogue : Catalogue,
    catalogue.writeAll records name = (Database.lastFields name records).or (catalogue name) := by
  induction records with
  | nil =>
      intro catalogue
      rfl
  | cons record rest ih =>
      intro catalogue
      have later := ih (catalogue.write record)
      rw [writeAll, List.foldl_cons, ← writeAll, later, Database.lastFields_cons, Option.or_assoc]
      congr 1
      by_cases same : record.name = name
      · subst same
        rw [if_pos rfl, write, Function.update_self, Option.some_or]
      · rw [if_neg same, write, Function.update_of_ne (Ne.symm same), Option.none_or]

end Catalogue

/-! ## Stores that keep a catalogue -/

/-- An open store finds the fields of a catalogue in a regular database. -/
structure Session.Keeps (session : Session) (opening : Opening) (hash : NameHash) (bound : Nat)
    (catalogue : Catalogue) : Prop where
  ready : session.Ready opening
  /-- The numbers that are in use are below the bound. -/
  regular : (session.database opening).Regular hash bound
  finds : ∀ name, (session.database opening).fieldsOf hash name = .ok (catalogue name)

namespace Session.Keeps

variable {session : Session} {opening : Opening} {hash : NameHash} {bound : Nat}
  {catalogue : Catalogue} (keeps : session.Keeps opening hash bound catalogue)
include keeps

/-- What is found for a name is what the catalogue has. -/
theorem exists_find (name : String) :
    ∃ result, (session.database opening).find hash name = .ok result ∧
      result.map Found.fields = catalogue name := by
  have found := keeps.finds name
  obtain ⟨result, searched⟩ := keeps.regular.exists_find name
  rw [Database.fieldsOf, searched] at found
  exact ⟨result, searched, Except.ok.inj found⟩

theorem putMany {records : List Record}
    (within : session.store.options.maxBatchSize.lessThan records.length = false)
    (fits : ∀ record ∈ records, record.Fits) (enough : bound + records.length ≤ 2 ^ 64) :
    ∃ after, Store.putMany hash records session = .ok () after ∧
      after.Keeps opening hash (bound + records.length) (catalogue.writeAll records) ∧
        after.store = session.store := by
  obtain ⟨written, each, regular⟩ := keeps.regular.exists_writeEach records enough fits
  have room : ∀ record ∈ records,
      (session.database opening).HasRoom (hash record.name) records.length :=
    fun record _ => keeps.regular.hasRoom enough (hash record.name)
  have taken := (Database.putMany_eq_writeEach within fits room).trans each
  obtain ⟨after, done, ready, rfl, same⟩ := Store.putMany_ok keeps.ready taken
  refine ⟨after, done, ⟨ready, regular, fun name => ?_⟩, same⟩
  rw [Database.fieldsOf_writeEach records fits room each name, Catalogue.writeAll_apply]
  cases Database.lastFields name records with
  | some fields => rfl
  | none => exact keeps.finds name

/-- A deletion takes the name out of the catalogue. -/
theorem delete (name : String) :
    ∃ after, Store.delete hash name session = .ok (catalogue name).isSome after ∧
      after.Keeps opening hash bound (Function.update catalogue name none) ∧
        after.store = session.store := by
  obtain ⟨result, searched, known⟩ := keeps.exists_find name
  obtain ⟨left, erased, regular, gone⟩ : ∃ left,
      (session.database opening).delete hash name = .ok ((catalogue name).isSome, left) ∧
        left.Regular hash bound ∧ left.find hash name = .ok none := by
    cases result with
    | none =>
        refine ⟨_, ?_, keeps.regular, searched⟩
        rw [Database.delete, searched, ← known]
        rfl
    | some found =>
        refine ⟨_, ?_, keeps.regular.erase found.key, keeps.regular.find_erase_self searched⟩
        rw [Database.delete, searched, ← known]
        rfl
  obtain ⟨after, done, ready, rfl, same⟩ := Store.delete_ok keeps.ready erased
  refine ⟨after, done, ⟨ready, regular, fun other => ?_⟩, same⟩
  by_cases self : other = name
  · subst self
    rw [Database.fieldsOf, gone, Function.update_self]
    rfl
  · rw [Database.fieldsOf, Database.find_delete erased self, Function.update_of_ne self]
    exact keeps.finds other

theorem names :
    ∃ shown, (Call.names.perform hash) session = .ok (.names shown) session ∧ shown.Nodup ∧
      ∀ name, name ∈ shown ↔ (catalogue name).isSome := by
  obtain ⟨shown, listed, once, exactly⟩ := keeps.regular.names
  refine ⟨shown, ?_, once, fun name => ?_⟩
  · have list : Store.list .name session = .ok ⟨shown, none⟩ session := by
      rw [Store.list_run keeps.ready, listed]
    exact EStateM.bind_ok list
  · obtain ⟨result, searched, known⟩ := keeps.exists_find name
    rw [exactly, searched, ← known]
    cases result <;> simp

/-- A batch is written, or it is too long and nothing changes. -/
theorem batch {limit : Number} (limited : session.store.options.maxBatchSize = limit)
    (records : List Record) (fits : ∀ record ∈ records, record.Fits)
    (enough : bound + (Call.putMany records).count limit ≤ 2 ^ 64) :
    catalogue.Answers limit (.putMany records)
        (((Call.putMany records).perform hash).outcome session) ∧
      (((Call.putMany records).perform hash).left session).Keeps opening hash
          (bound + (Call.putMany records).count limit)
          (catalogue.after limit (.putMany records)) ∧
        (((Call.putMany records).perform hash).left session).store = session.store := by
  subst limited
  cases within : session.store.options.maxBatchSize.lessThan records.length with
  | true =>
      have refused : (session.database opening).putMany hash
          session.store.options.maxBatchSize records =
            .error (.tooMany records.length session.store.options.maxBatchSize) := by
        rw [Database.putMany, if_pos within]
      have failed : (Call.putMany records).perform hash session =
          .error (.batch (.tooMany records.length session.store.options.maxBatchSize)) session :=
        EStateM.bind_error (Store.putMany_error keeps.ready refused)
      rw [StoreM.outcome_error failed, StoreM.left_error failed]
      simp only [Catalogue.Answers, Catalogue.confirmation, Catalogue.after, Call.count,
        Call.records, within, if_true, true_and, and_true]
      exact keeps
  | false =>
      simp only [Call.count, Call.records, within, Bool.false_eq_true, if_false] at enough
      obtain ⟨after, done, kept, same⟩ := keeps.putMany within fits enough
      have written : (Call.putMany records).perform hash session = .ok .written after :=
        EStateM.bind_ok done
      rw [StoreM.outcome_ok written, StoreM.left_ok written]
      simp only [Catalogue.Answers, Catalogue.confirmation, Catalogue.after, Call.count,
        Call.records, within, Bool.false_eq_true, if_false, true_and]
      exact ⟨kept, same⟩

/-- **A call is answered as the catalogue has it**, and the store keeps the catalogue after it. -/
theorem call {limit : Number} (limited : session.store.options.maxBatchSize = limit) (call : Call)
    (fits : ∀ record ∈ call.records, record.Fits) (enough : bound + call.count limit ≤ 2 ^ 64) :
    catalogue.Answers limit call ((call.perform hash).outcome session) ∧
      ((call.perform hash).left session).Keeps opening hash (bound + call.count limit)
          (catalogue.after limit call) ∧
        ((call.perform hash).left session).store = session.store := by
  cases call with
  | get name =>
      obtain ⟨result, searched, known⟩ := keeps.exists_find name
      have found : Store.fieldsOf hash name session = .ok (catalogue name) session := by
        rw [Store.fieldsOf_run keeps.ready, searched, ← known]
      have answered : (Call.get name).perform hash session =
          .ok (.fields (catalogue name)) session := EStateM.bind_ok found
      rw [StoreM.outcome_ok answered, StoreM.left_ok answered, Call.count_of_records_eq_nil rfl]
      exact ⟨rfl, keeps, rfl⟩
  | put record => exact keeps.batch limited [record] fits enough
  | putMany records => exact keeps.batch limited records fits enough
  | delete name =>
      obtain ⟨after, done, kept, same⟩ := keeps.delete name
      have answered : (Call.delete name).perform hash session =
          .ok (.deleted (catalogue name).isSome) after := EStateM.bind_ok done
      rw [StoreM.outcome_ok answered, StoreM.left_ok answered, Call.count_of_records_eq_nil rfl]
      exact ⟨rfl, kept, same⟩
  | names =>
      obtain ⟨shown, answered, once, exactly⟩ := keeps.names
      rw [StoreM.outcome_ok answered, StoreM.left_ok answered, Call.count_of_records_eq_nil rfl]
      exact ⟨⟨shown, rfl, once, exactly⟩, keeps, rfl⟩

end Session.Keeps

/-! ## Any number of calls -/

/-- A store that keeps a catalogue answers calls as the catalogue has it. -/
theorem Session.Keeps.answers {opening : Opening} {hash : NameHash} {limit : Number}
    (calls : List Call) : ∀ {session : Session} {bound : Nat} {catalogue : Catalogue},
      session.Keeps opening hash bound catalogue → session.store.options.maxBatchSize = limit →
        (∀ call ∈ calls, ∀ record ∈ call.records, record.Fits) →
          bound + (calls.map (Call.count limit)).sum ≤ 2 ^ 64 →
            catalogue.Explains limit calls (session.answers hash calls) := by
  induction calls with
  | nil =>
      intro session bound catalogue _ _ _ _
      exact .nil catalogue
  | cons call rest ih =>
      intro session bound catalogue keeps limited fits enough
      obtain ⟨fitsHere, fitsLater⟩ := List.forall_mem_cons.mp fits
      rw [List.map_cons, List.sum_cons] at enough
      obtain ⟨right, kept, same⟩ := keeps.call limited call fitsHere (by omega)
      exact .cons right (ih kept (same ▸ limited) fitsLater (by omega))

/-- **A store whose database begins without pairs answers as a catalogue**, under any hash, to any
calls that write at most two to the 64th records.  The numbers of all names are apart until then. -/
theorem answers_eq_catalogue {session : Session} {opening : Opening} {hash : NameHash}
    {calls : List Call} (ready : session.Ready opening)
    (fresh : (session.database opening).pairs = [])
    (fits : ∀ call ∈ calls, ∀ record ∈ call.records, record.Fits)
    (countable : (calls.map (Call.count session.store.options.maxBatchSize)).sum ≤ 2 ^ 64) :
    Catalogue.empty.Explains session.store.options.maxBatchSize calls
      (session.answers hash calls) := by
  have keeps : session.Keeps opening hash 0 .empty := by
    refine ⟨ready, Database.regular_of_pairs_eq_nil fresh hash, fun name => ?_⟩
    simp only [Database.fieldsOf, Database.find, Database.under, fresh]
    rfl
  exact keeps.answers calls rfl fits (by rwa [Nat.zero_add])

theorem answers_eq_catalogue_sharedHash :
    Catalogue.empty.Explains (Session.holding .empty).store.options.maxBatchSize
      [.put ⟨"a", [[1]]⟩, .putMany [⟨"b", []⟩, ⟨"a", [[2]]⟩], .get "a", .delete "b", .names]
      ((Session.holding .empty).answers (fun _ => .zeros)
        [.put ⟨"a", [[1]]⟩, .putMany [⟨"b", []⟩, ⟨"a", [[2]]⟩], .get "a", .delete "b", .names]) :=
  answers_eq_catalogue (Session.ready_holding .empty) rfl (by decide +kernel) (by decide)

end Septet
