import Septet.Proofs.Store.Catalogue

/-!
# What calls come to

The answer of an open store to a call, and the pairs that it has afterwards, depend on
nothing but the pairs that it has and its limit on batches.  They are told by a
function of these (`Database.serve`), and a ready store does what this function tells
(`Call.perform_run`).  A store that is not open refuses every call
(`Call.perform_of_closed`).
-/

set_option autoImplicit false

namespace Septet

/-- Whether an answer confirms a write. -/
def Answer.confirms : Answer → Bool
  | written | deleted _ => true
  | fields _ | names _ => false

namespace Database

/-- What a database answers to a call, and what it is afterwards. -/
def serve (database : Database) (hash : NameHash) (limit : Number) :
    Call → Except StoreError (Answer × Database)
  | .get name => do
      let found ← (database.find hash name).mapError .record
      .ok (.fields (found.map Found.fields), database)
  | .put record => do
      let written ← (database.put hash limit record).mapError .batch
      .ok (.written, written)
  | .putMany records => do
      let written ← (database.putMany hash limit records).mapError .batch
      .ok (.written, written)
  | .delete name => do
      let (existed, left) ← (database.delete hash name).mapError .record
      .ok (.deleted existed, left)
  | .names =>
      match database.list .name with
      | ⟨shown, none⟩ => .ok (.names shown, database)
      | ⟨_, some cause⟩ => .error (.record cause)

/-- What a database is after a call; a call that is refused changes nothing. -/
def afterCall (database : Database) (hash : NameHash) (limit : Number) (call : Call) : Database :=
  match database.serve hash limit call with
  | .ok (_, after) => after
  | .error _ => database

theorem afterCall_ok {database after : Database} {hash : NameHash} {limit : Number} {call : Call}
    {answer : Answer} (served : database.serve hash limit call = .ok (answer, after)) :
    database.afterCall hash limit call = after := by
  rw [afterCall, served]

theorem afterCall_error {database : Database} {hash : NameHash} {limit : Number} {call : Call}
    {cause : StoreError} (refused : database.serve hash limit call = .error cause) :
    database.afterCall hash limit call = database := by
  rw [afterCall, refused]

/-- A call that is served has written its records, has deleted a name, or has changed nothing. -/
theorem serve_cases {database after : Database} {hash : NameHash} {limit : Number} {call : Call}
    {answer : Answer} (served : database.serve hash limit call = .ok (answer, after)) :
    (answer = .written ∧ database.putMany hash limit call.records = .ok after) ∨
      (∃ name existed, call = .delete name ∧ answer = .deleted existed ∧
        database.delete hash name = .ok (existed, after)) ∨
      (answer.confirms = false ∧ call.records = [] ∧ after = database) := by
  cases call with
  | get name =>
      rw [serve] at served
      cases found : database.find hash name <;> rw [found] at served <;> cases served
      exact .inr (.inr ⟨rfl, rfl, rfl⟩)
  | put record =>
      rw [serve, put] at served
      cases taken : database.putMany hash limit [record] <;> rw [taken] at served <;> cases served
      exact .inl ⟨rfl, taken⟩
  | putMany records =>
      rw [serve] at served
      cases taken : database.putMany hash limit records <;> rw [taken] at served <;> cases served
      exact .inl ⟨rfl, taken⟩
  | delete name =>
      rw [serve] at served
      cases erased : database.delete hash name <;> rw [erased] at served <;> cases served
      exact .inr (.inl ⟨name, _, rfl, rfl, erased⟩)
  | names =>
      rw [serve] at served
      cases listed : database.list .name with
      | mk shown failure =>
          rw [listed] at served
          cases failure <;> cases served
          exact .inr (.inr ⟨rfl, rfl, rfl⟩)

/-- Only a write that is confirmed can change a database. -/
theorem eq_of_serve {database after : Database} {hash : NameHash} {limit : Number} {call : Call}
    {answer : Answer} (served : database.serve hash limit call = .ok (answer, after))
    (read : answer.confirms = false) : after = database := by
  rcases serve_cases served with ⟨rfl, _⟩ | ⟨_, _, _, rfl, _⟩ | ⟨_, _, same⟩
  · cases read
  · cases read
  · exact same

end Database

namespace Call

variable {session : Session} {opening : Opening}

/-! ## Open stores -/

section Ready

variable (ready : session.Ready opening) (hash : NameHash)
include ready

/-- A store does to a session what its database makes of a call: a call that is served is answered
and leaves the database as it is to be, and one that is refused leaves everything as it was. -/
theorem perform_serve (call : Call) :
    match (session.database opening).serve hash session.store.options.maxBatchSize call with
    | .ok (answer, after) =>
        ∃ left, call.perform hash session = .ok answer left ∧ left.Ready opening ∧
          left.database opening = after ∧ left.store = session.store
    | .error cause => call.perform hash session = .error cause session := by
  have batch : ∀ records : List Record,
      match (session.database opening).serve hash session.store.options.maxBatchSize
          (.putMany records) with
      | .ok (answer, after) =>
          ∃ left, (Call.putMany records).perform hash session = .ok answer left ∧
            left.Ready opening ∧ left.database opening = after ∧ left.store = session.store
      | .error cause => (Call.putMany records).perform hash session = .error cause session := by
    intro records
    rw [Database.serve]
    cases taken : (session.database opening).putMany hash session.store.options.maxBatchSize
        records with
    | error cause => exact EStateM.bind_error (Store.putMany_error ready taken)
    | ok written =>
        obtain ⟨left, done, rest⟩ := Store.putMany_ok ready taken
        exact ⟨left, EStateM.bind_ok done, rest⟩
  cases call with
  | get name =>
      have run := Store.fieldsOf_run ready hash name
      rw [Database.serve]
      cases searched : (session.database opening).find hash name with
      | error cause =>
          rw [searched] at run
          exact EStateM.bind_error run
      | ok found =>
          rw [searched] at run
          exact ⟨session, EStateM.bind_ok run, ready, rfl, rfl⟩
  | put record => exact batch [record]
  | putMany records => exact batch records
  | delete name =>
      rw [Database.serve]
      cases erased : (session.database opening).delete hash name with
      | error cause => exact EStateM.bind_error (Store.delete_error ready erased)
      | ok result =>
          obtain ⟨left, done, rest⟩ := Store.delete_ok ready erased
          exact ⟨left, EStateM.bind_ok done, rest⟩
  | names =>
      have run := Store.list_run ready .name
      rw [Database.serve]
      cases listed : (session.database opening).list .name with
      | mk shown failure =>
          rw [listed] at run
          cases failure with
          | none => exact ⟨session, EStateM.bind_ok run, ready, rfl, rfl⟩
          | some cause => exact EStateM.bind_ok run

/-- **A ready store answers a call as its database does**, stays ready, and has the pairs that its
database has afterwards. -/
theorem perform_run (call : Call) :
    (call.perform hash).outcome session =
        ((session.database opening).serve hash session.store.options.maxBatchSize call).map Prod.fst ∧
      ((call.perform hash).left session).Ready opening ∧
        ((call.perform hash).left session).database opening =
            (session.database opening).afterCall hash session.store.options.maxBatchSize call ∧
          ((call.perform hash).left session).store = session.store := by
  have does := perform_serve ready hash call
  cases served : (session.database opening).serve hash session.store.options.maxBatchSize call with
  | error cause =>
      rw [served] at does
      rw [StoreM.outcome_error does, StoreM.left_error does, Database.afterCall_error served]
      exact ⟨rfl, ready, rfl, rfl⟩
  | ok result =>
      rw [served] at does
      obtain ⟨left, done, readyThen, holds, same⟩ := does
      rw [StoreM.outcome_ok done, StoreM.left_ok done, Database.afterCall_ok served]
      exact ⟨rfl, readyThen, holds, same⟩

end Ready

/-! ## Stores that are not open -/

/-- A store that is not open refuses every call, and nothing changes. -/
theorem perform_of_closed (closed : session.store.opening = none) (hash : NameHash) (call : Call) :
    call.perform hash session = .error .notOpen session := by
  have unopened : Store.requireOpening session = .error .notOpen session := by
    rw [Store.requireOpening, EStateM.get_bind, closed]
    rfl
  have unseen : Store.contents session = .error .notOpen session := EStateM.bind_error unopened
  have unlisted : ∀ aspect, Store.list aspect session = .error .notOpen session :=
    fun _ => EStateM.bind_error unseen
  have unwritten : ∀ records, Store.putMany hash records session = .error .notOpen session := by
    intro records
    rw [Store.putMany, EStateM.get_bind]
    exact EStateM.bind_error unseen
  cases call with
  | get name => exact EStateM.bind_error (EStateM.bind_error unseen)
  | put record => exact EStateM.bind_error (unwritten [record])
  | putMany records => exact EStateM.bind_error (unwritten records)
  | delete name => exact EStateM.bind_error (EStateM.bind_error unseen)
  | names => exact EStateM.bind_error (unlisted .name)

end Call

end Septet
