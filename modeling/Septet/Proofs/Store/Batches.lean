import Septet.Proofs.Database.Allotment
import Septet.Proofs.Database.Records
import Septet.Proofs.Database.Refusal
import Septet.Proofs.Store.Session

/-!
# Batches of an open store

A batch that an open store takes leaves the same pairs as its records put one by one
(`putMany_eq_forM_put`).  Whether it takes a batch, and why not, is decided by the
length of the batch and by the first record that is refused, and a refusal leaves the
store as it was (`putMany_error_iff`).  After a batch its names have the fields that
come last in it, and neither a batch nor a deletion changes what is found for any
other name, whatever the database holds (`fieldsOf_changed_only`).

A batch writes its records under the keys that are allotted to their names, and while the
numbers of 64 bits last, a new name gets a key that is not in use
(`putMany_writes_allotted`).  After that the numbers begin again, and a new name may take
the key of another one (`putMany_overwrites`).
-/

set_option autoImplicit false

namespace Septet

/-- All pairs under the hashes of records hold records and have numbers, and the numbers leave room
for as many new keys as there are records. -/
def Database.Legible (database : Database) (hash : NameHash) (records : List Record) : Prop :=
  ∀ record ∈ records, ∀ pair ∈ database.under (hash record.name).bytes,
    (∃ stored, Record.decode pair.2 = .ok stored) ∧
      ∃ decoded, Quantity.decode .bits64 pair.1 0 = .ok decoded ∧
        decoded.value + records.length < 2 ^ 64

/-- The numbers under the hashes of records, of the keys that have one, leave room for as many new
keys as there are records. -/
def Database.Spacious (database : Database) (hash : NameHash) (records : List Record) : Prop :=
  ∀ record ∈ records, ∀ pair ∈ database.under (hash record.name).bytes, ∀ decoded,
    Quantity.decode .bits64 pair.1 0 = .ok decoded → decoded.value + records.length < 2 ^ 64

namespace Database

variable {database : Database} {hash : NameHash} {records : List Record}

theorem Legible.spacious (legible : database.Legible hash records) :
    database.Spacious hash records := by
  intro record member pair inside decoded found
  obtain ⟨_, again, same, small⟩ := legible record member pair inside
  cases found.symm.trans same
  exact small

theorem Spacious.hasRoom (spacious : database.Spacious hash records)
    (countable : records.length ≤ 2 ^ 64) :
    ∀ record ∈ records, database.HasRoom (hash record.name) records.length :=
  fun record member => hasRoom_of_forall_lt countable (spacious record member)

/-- A database that is legible for records takes them. -/
theorem Legible.exists_putMany {limit : Number} (legible : database.Legible hash records)
    (within : limit.lessThan records.length = false) :
    ∃ written, database.putMany hash limit records = .ok written := by
  cases result : database.putMany hash limit records with
  | ok written => exact ⟨written, rfl⟩
  | error cause =>
      rcases putMany_eq_error_iff.mp result with ⟨tooMany, _⟩ | ⟨_, first⟩
      · rw [within] at tooMany
        cases tooMany
      · obtain ⟨before, record, after, rfl, _, refused⟩ := first
        have readable := legible record (List.mem_append_right _ List.mem_cons_self)
        cases refused with
        | record split broken passed =>
            obtain ⟨⟨stored, holds⟩, _⟩ :=
              readable _ (split ▸ List.mem_append_right _ List.mem_cons_self)
            cases broken.symm.trans holds
        | number absent new split broken numbered =>
            obtain ⟨_, decoded, found, _⟩ :=
              readable _ (split ▸ List.mem_append_right _ List.mem_cons_self)
            cases broken.symm.trans found

end Database

namespace Store

variable {session : Session} {opening : Opening} {hash : NameHash} {records : List Record}

/-! ## One by one -/

/-- Records that the database takes one by one are put one by one. -/
theorem forM_put_ok : ∀ (records : List Record) {session : Session} {written : Database},
    session.Ready opening →
      (records ≠ [] → session.store.options.maxBatchSize.lessThan 1 = false) →
        (session.database opening).writeEach hash records = .ok written →
          ∃ after, records.forM (put hash) session = .ok () after ∧
            after.database opening = written
  | [], session, written, _, _, each => by
      cases each
      exact ⟨session, rfl, rfl⟩
  | record :: rest, session, written, ready, within, each => by
      have one := within (List.cons_ne_nil record rest)
      simp only [Database.writeEach, ← Database.put_eq_write one] at each
      cases taken : (session.database opening).put hash session.store.options.maxBatchSize record with
      | error cause =>
          rw [taken] at each
          cases each
      | ok first =>
          rw [taken] at each
          obtain ⟨between, done, readyThen, holds, same⟩ := putMany_ok ready taken
          obtain ⟨after, others, last⟩ := forM_put_ok rest readyThen
            (fun _ => same ▸ one) (holds ▸ each)
          refine ⟨after, ?_, last⟩
          have first : (put hash record >>= fun _ => rest.forM (put hash)) session =
              rest.forM (put hash) between := EStateM.bind_ok done
          exact first.trans others

/-- **A batch leaves the same pairs as its records put one by one**, when the pairs under their
hashes can be read.  That there are at most two to the 64th records holds of every list in
memory. -/
theorem putMany_eq_forM_put (ready : session.Ready opening)
    (within : session.store.options.maxBatchSize.lessThan records.length = false)
    (countable : records.length ≤ 2 ^ 64) (fits : ∀ record ∈ records, record.Fits)
    (legible : (session.database opening).Legible hash records) :
    ∃ together oneByOne, putMany hash records session = .ok () together ∧
      records.forM (put hash) session = .ok () oneByOne ∧
        together.database opening = oneByOne.database opening := by
  obtain ⟨written, taken⟩ := legible.exists_putMany within
  have each := taken
  rw [Database.putMany_eq_writeEach within fits (legible.spacious.hasRoom countable)] at each
  have one : records ≠ [] → session.store.options.maxBatchSize.lessThan 1 = false :=
    fun some => Number.within_one within (List.length_pos_iff.mpr some)
  obtain ⟨together, batch, _, same, _⟩ := putMany_ok ready taken
  obtain ⟨oneByOne, singly, alike⟩ := forM_put_ok records ready one each
  exact ⟨together, oneByOne, batch, singly, same.trans alike.symm⟩

/-- Two records under one hash; another byte stands behind the number of the second one. -/
def sharedHash : Database :=
  Database.empty.insertAll
    [(Database.keyOf .zeros 0, (Record.mk "b" []).encode),
      (Database.keyOf .zeros 1 ++ [7], (Record.mk "c" [[1]]).encode)]

theorem putMany_eq_forM_put_sharedHash :
    ∃ together oneByOne,
      putMany (fun _ => .zeros) [⟨"a", []⟩, ⟨"b", [[1]]⟩, ⟨"a", [[2]]⟩]
          (Session.holding sharedHash) = .ok () together ∧
        [⟨"a", []⟩, ⟨"b", [[1]]⟩, ⟨"a", [[2]]⟩].forM (put fun _ => .zeros)
            (Session.holding sharedHash) = .ok () oneByOne ∧
          together.database ⟨0, []⟩ = oneByOne.database ⟨0, []⟩ := by
  refine putMany_eq_forM_put (Session.ready_holding sharedHash) (by decide) (by decide)
    (by decide +kernel) ?_
  have seen : sharedHash.under Digest.zeros.bytes =
      [([0], [1, 98, 0]), ([1, 7], [1, 99, 1, 1, 1])] := by decide +kernel
  intro record _ pair inside
  simp only [Session.database_holding, seen, List.mem_cons, List.not_mem_nil, or_false] at inside
  rcases inside with rfl | rfl
  · exact ⟨⟨⟨"b", []⟩, by decide +kernel⟩, ⟨0, 1⟩, by decide, by decide⟩
  · exact ⟨⟨⟨"c", [[1]]⟩, by decide +kernel⟩, ⟨1, 1⟩, by decide, by decide⟩

/-! ## Refusals -/

/-- **When a batch is refused, why, and what is left.**  The store stays as it was.  The cause is the
length of the batch, or that of the first record that is refused; and there is one exactly when the
batch is too long or some record is rejected behind those before it. -/
theorem putMany_error_iff (ready : session.Ready opening) :
    (∀ cause after, putMany hash records session = .error cause after ↔
      after = session ∧ ∃ refusal, cause = .batch refusal ∧
        (session.store.options.maxBatchSize.lessThan records.length = true ∧
            refusal = .tooMany records.length session.store.options.maxBatchSize ∨
          session.store.options.maxBatchSize.lessThan records.length = false ∧
            FirstRefused (session.database opening) hash [] records refusal)) ∧
      ((∃ cause after, putMany hash records session = .error cause after) ↔
        session.store.options.maxBatchSize.lessThan records.length = true ∨
          ∃ before record behind, records = before ++ record :: behind ∧
            Rejected (session.database opening) hash before record) := by
  have exact_cause : ∀ cause after, putMany hash records session = .error cause after ↔
      after = session ∧ ∃ refusal, cause = .batch refusal ∧
        (session.database opening).putMany hash session.store.options.maxBatchSize records =
          .error refusal := by
    intro cause after
    cases result : (session.database opening).putMany hash session.store.options.maxBatchSize
        records with
    | error refusal =>
        rw [putMany_error ready result]
        constructor
        · intro same
          cases same
          exact ⟨rfl, refusal, rfl, rfl⟩
        · rintro ⟨rfl, _, rfl, same⟩
          cases same
          rfl
    | ok written =>
        obtain ⟨last, done, _⟩ := putMany_ok ready result
        rw [done]
        refine iff_of_false (fun same => by cases same) ?_
        rintro ⟨_, _, _, same⟩
        cases same
  refine ⟨fun cause after => ?_, ?_⟩
  · simp only [exact_cause, Database.putMany_eq_error_iff]
  · simp only [exact_cause, Database.putMany_eq_error_iff]
    constructor
    · rintro ⟨_, _, _, refusal, _, ⟨long, _⟩ | ⟨_, first⟩⟩
      · exact .inl long
      · exact .inr ((exists_rejected_iff records).mpr ⟨refusal, first⟩)
    · intro refused
      cases limit : session.store.options.maxBatchSize.lessThan records.length with
      | true => exact ⟨_, session, rfl, _, rfl, .inl ⟨rfl, rfl⟩⟩
      | false =>
          rw [limit] at refused
          have some : ∃ refusal, FirstRefused (session.database opening) hash [] records refusal :=
            (exists_rejected_iff records).mp (refused.resolve_left (by decide))
          obtain ⟨refusal, first⟩ := some
          exact ⟨_, session, rfl, refusal, rfl, .inr ⟨rfl, first⟩⟩

/-- A record of another name stands before a value that holds none. -/
def damaged : Database :=
  Database.empty.insertAll
    [(Database.keyOf .zeros 0, (Record.mk "b" []).encode), (Database.keyOf .zeros 1, [5])]

theorem putMany_error_iff_damaged :
    ∃ cause after,
      putMany (fun _ => .zeros) [⟨"b", [[1]]⟩, ⟨"a", []⟩] (Session.holding damaged) =
        .error cause after := by
  refine (putMany_error_iff (Session.ready_holding damaged)).2.mpr
    (.inr ⟨[⟨"b", [[1]]⟩], ⟨"a", []⟩, [], rfl, .inl ?_⟩)
  have seen : damaged.under Digest.zeros.bytes = [([0], [1, 98, 0]), ([1], [5])] := by
    decide +kernel
  refine ⟨[([0], [1, 98, 0])], ([1], [5]), [], seen, ⟨.truncated 5 1 0, by decide +kernel⟩, ?_⟩
  rintro earlier member ⟨fields, holds⟩
  cases List.mem_singleton.mp member
  have other : Record.decode [1, 98, 0] = .ok ⟨"b", []⟩ := by decide +kernel
  have same : "b" = "a" := congrArg Record.name (Except.ok.inj (other.symm.trans holds))
  exact absurd same (by decide)

/-! ## What is found afterwards -/

theorem outcome_fieldsOf (ready : session.Ready opening) (name : String) :
    (fieldsOf hash name).outcome session =
      ((session.database opening).fieldsOf hash name).mapError StoreError.record := by
  simp only [StoreM.outcome, fieldsOf_run ready, Database.fieldsOf]
  cases (session.database opening).find hash name <;> rfl

/-- **A batch and a deletion change what is found for their own names only.**  After a batch its
names have the fields that come last in it. -/
theorem fieldsOf_changed_only (ready : session.Ready opening) :
    (∀ records after, records.length ≤ 2 ^ 64 → (∀ record ∈ records, record.Fits) →
      (session.database opening).Spacious hash records →
        putMany hash records session = .ok () after → ∀ name,
          (fieldsOf hash name).outcome after =
            match Database.lastFields name records with
            | some fields => .ok (some fields)
            | none => (fieldsOf hash name).outcome session) ∧
      ∀ name existed after, delete hash name session = .ok existed after →
        ∀ other, other ≠ name →
          (fieldsOf hash other).outcome after = (fieldsOf hash other).outcome session := by
  constructor
  · intro records after countable fits spacious done name
    cases result : (session.database opening).putMany hash session.store.options.maxBatchSize
        records with
    | error refusal =>
        rw [putMany_error ready result] at done
        cases done
    | ok written =>
        obtain ⟨last, same, readyAfter, holds, _⟩ := putMany_ok ready result
        cases done.symm.trans same
        have within : session.store.options.maxBatchSize.lessThan records.length = false := by
          rw [Bool.eq_false_iff]
          intro tooMany
          rw [Database.putMany_eq_error_iff.mpr (.inl ⟨tooMany, rfl⟩)] at result
          cases result
        rw [Database.putMany_eq_writeEach within fits (spacious.hasRoom countable)] at result
        rw [outcome_fieldsOf readyAfter, outcome_fieldsOf ready, holds,
          Database.fieldsOf_writeEach records fits (spacious.hasRoom countable) result name]
        cases Database.lastFields name records <;> rfl
  · intro name existed after done other different
    cases result : (session.database opening).delete hash name with
    | error cause =>
        rw [delete_error ready result] at done
        cases done
    | ok pair =>
        obtain ⟨was, left⟩ := pair
        obtain ⟨last, same, readyAfter, holds, _⟩ := delete_ok ready result
        cases done.symm.trans same
        rw [outcome_fieldsOf readyAfter, outcome_fieldsOf ready, holds, Database.fieldsOf,
          Database.fieldsOf, Database.find_delete result different]

theorem fieldsOf_changed_only_damaged :
    ∃ after, putMany (fun _ => .zeros) [⟨"b", [[1]]⟩, ⟨"b", [[2]]⟩]
        (Session.holding damaged) = .ok () after ∧
      (fieldsOf (fun _ => .zeros) "b").outcome after = .ok (some [[2]]) ∧
        (fieldsOf (fun _ => .zeros) "a").outcome after =
          (fieldsOf (fun _ => .zeros) "a").outcome (Session.holding damaged) := by
  have ready := Session.ready_holding damaged
  have seen : damaged.under Digest.zeros.bytes = [([0], [1, 98, 0]), ([1], [5])] := by
    decide +kernel
  have spacious : damaged.Spacious (fun _ => .zeros) [⟨"b", [[1]]⟩, ⟨"b", [[2]]⟩] := by
    intro record _ pair inside decoded found
    simp only [seen, List.mem_cons, List.not_mem_nil, or_false] at inside
    rcases inside with rfl | rfl
    · cases found
      decide
    · cases found
      decide
  cases done : putMany (fun _ => .zeros) [⟨"b", [[1]]⟩, ⟨"b", [[2]]⟩]
      (Session.holding damaged) with
  | error cause after =>
      have refused : ((putMany (fun _ => .zeros) [⟨"b", [[1]]⟩, ⟨"b", [[2]]⟩]).outcome
          (Session.holding damaged)).isOk = true := by decide +kernel
      rw [StoreM.outcome_error done] at refused
      cases refused
  | ok _ after =>
      have found := (fieldsOf_changed_only ready).1 _ after (by decide) (by decide +kernel)
        spacious done
      refine ⟨after, rfl, (found "b").trans ?_, (found "a").trans ?_⟩
      · have last : Database.lastFields "b" [⟨"b", [[1]]⟩, ⟨"b", [[2]]⟩] = some [[2]] := by decide
        rw [last]
      · have none : Database.lastFields "a" [⟨"b", [[1]]⟩, ⟨"b", [[2]]⟩] = none := by decide
        rw [none]

/-! ## Keys that are given out -/

/-- **Where a batch writes its records, and when that is a place of their own.**  A new name has a
number greater than those in use under its hash, and its key is in use exactly if this number is
beyond 64 bits and the key of what is left of it is in use.  So while there is room for the new names,
none of them gets a key that is in use, different names of the batch have different keys, and no pair
of another name is overwritten. -/
theorem putMany_writes_allotted (ready : session.Ready opening) {after : Session}
    (done : putMany hash records session = .ok () after) :
    ∃ pairs, after.database opening = (session.database opening).insertAll pairs ∧
      List.Forall₂ (fun record pair =>
        (session.database opening).Allotted hash records record.name pair.1 ∧
          pair.2 = record.encode) records pairs ∧
      (∀ name key, (session.database opening).Allotted hash records name key →
        (session.database opening).find hash name = .ok none →
          ∃ number, key = Database.keyOf (hash name) number ∧
            (∀ stored < 2 ^ 64,
              (session.database opening).Uses (Database.keyOf (hash name) stored) →
                stored < number) ∧
            ((session.database opening).Uses key ↔ 2 ^ 64 ≤ number ∧
              (session.database opening).Uses (Database.keyOf (hash name) (number - 2 ^ 64)))) ∧
      ((session.database opening).RoomFor hash records →
        (∀ name key, (session.database opening).Allotted hash records name key →
          (session.database opening).find hash name = .ok none →
            ¬(session.database opening).Uses key) ∧
        (∀ name other key otherKey, (session.database opening).Allotted hash records name key →
          (session.database opening).Allotted hash records other otherKey → name ≠ other →
            key ≠ otherKey) ∧
        ∀ pair ∈ (session.database opening).pairs,
          (∀ record ∈ records, ∀ found,
            (session.database opening).find hash record.name = .ok (some found) →
              found.key ≠ pair.1) →
            pair ∈ (after.database opening).pairs) := by
  cases result : (session.database opening).putMany hash session.store.options.maxBatchSize
      records with
  | error refusal =>
      rw [putMany_error ready result] at done
      cases done
  | ok contents =>
      obtain ⟨last, same, _, holds, _⟩ := putMany_ok ready result
      cases done.symm.trans same
      obtain ⟨pairs, rfl, written⟩ := Database.exists_allotted_of_putMany result
      refine ⟨pairs, holds, written, fun name key allotted absent => allotted.exists_number absent,
        fun room => ⟨fun name key allotted absent => allotted.not_uses room absent,
          fun name other key otherKey allotted otherAllotted different =>
            allotted.ne otherAllotted room different, fun pair member others => ?_⟩⟩
      rw [holds]
      exact Database.mem_insertAll_of_written written room member others

theorem putMany_writes_allotted_sharedHash :
    ∃ after, putMany (fun _ => .zeros) [⟨"a", []⟩, ⟨"b", [[1]]⟩, ⟨"d", []⟩]
        (Session.holding sharedHash) = .ok () after ∧
      sharedHash.RoomFor (fun _ => .zeros) [⟨"a", []⟩, ⟨"b", [[1]]⟩, ⟨"d", []⟩] ∧
      ¬sharedHash.Uses (Database.keyOf .zeros 2) ∧
      (Database.keyOf .zeros 1 ++ [7], (Record.mk "c" [[1]]).encode) ∈
        (after.database ⟨0, []⟩).pairs := by
  have ready := Session.ready_holding sharedHash
  have names : sharedHash.newNames (fun _ => .zeros) .zeros
      [⟨"a", []⟩, ⟨"b", [[1]]⟩, ⟨"d", []⟩] = ["a", "d"] := by decide +kernel
  have next : sharedHash.nextNumber .zeros = .ok 2 := by decide +kernel
  have room : sharedHash.RoomFor (fun _ => .zeros) [⟨"a", []⟩, ⟨"b", [[1]]⟩, ⟨"d", []⟩] := by
    intro record _ number found
    cases next.symm.trans found
    rw [names]
    decide
  have allotted : sharedHash.Allotted (fun _ => .zeros) [⟨"a", []⟩, ⟨"b", [[1]]⟩, ⟨"d", []⟩] "a"
      (Database.keyOf .zeros 2) := by
    have place : (sharedHash.newNames (fun _ => .zeros) .zeros
        [⟨"a", []⟩, ⟨"b", [[1]]⟩, ⟨"d", []⟩]).idxOf "a" = 0 := by
      rw [names]
      decide
    have number : 2 = 2 + (sharedHash.newNames (fun _ => .zeros) .zeros
        [⟨"a", []⟩, ⟨"b", [[1]]⟩, ⟨"d", []⟩]).idxOf "a" := by rw [place]
    rw [number]
    exact .new (names ▸ by decide) next
  cases done : putMany (fun _ => .zeros) [⟨"a", []⟩, ⟨"b", [[1]]⟩, ⟨"d", []⟩]
      (Session.holding sharedHash) with
  | error cause after =>
      have taken : ((putMany (fun _ => .zeros) [⟨"a", []⟩, ⟨"b", [[1]]⟩, ⟨"d", []⟩]).outcome
          (Session.holding sharedHash)).isOk = true := by decide +kernel
      rw [StoreM.outcome_error done] at taken
      cases taken
  | ok _ after =>
      obtain ⟨_, _, _, _, fresh⟩ := putMany_writes_allotted ready done
      obtain ⟨unused, _, kept⟩ := fresh room
      refine ⟨after, rfl, room, unused "a" _ allotted (by decide +kernel), kept _ ?_ ?_⟩
      · decide +kernel
      · have absent : sharedHash.find (fun _ => .zeros) "a" = .ok none ∧
            sharedHash.find (fun _ => .zeros) "d" = .ok none := by decide +kernel
        have stored : sharedHash.find (fun _ => .zeros) "b" =
            .ok (some ⟨Database.keyOf .zeros 0, []⟩) := by decide +kernel
        intro record member found there
        simp only [List.mem_cons, List.not_mem_nil, or_false] at member
        rcases member with rfl | rfl | rfl
        · cases absent.1.symm.trans there
        · cases stored.symm.trans there
          decide +kernel
        · cases absent.2.symm.trans there

/-- The greatest number of 64 bits is in use, and so is zero. -/
def worn : Database :=
  Database.empty.insertAll
    [(Database.keyOf .zeros 0, (Record.mk "a" [[1]]).encode),
      (Database.keyOf .zeros (2 ^ 64 - 1), (Record.mk "z" []).encode)]

theorem regular_worn : worn.Regular (fun _ => .zeros) (2 ^ 64) := by
  have pairs : worn.pairs = [⟨0, ⟨"a", [[1]]⟩⟩, ⟨2 ^ 64 - 1, ⟨"z", []⟩⟩].map
      (Entry.pair fun _ => .zeros) := by decide +kernel
  exact Database.regular_of_entries pairs (by decide +kernel) (by decide)

/-- **A new name takes the key of another one when the numbers of 64 bits are used up.** -/
theorem putMany_overwrites :
    worn.Regular (fun _ => .zeros) (2 ^ 64) ∧
      worn.find (fun _ => .zeros) "a" = .ok (some ⟨Database.keyOf .zeros 0, [[1]]⟩) ∧
      worn.find (fun _ => .zeros) "b" = .ok none ∧
      ∃ after, putMany (fun _ => .zeros) [⟨"b", []⟩] (Session.holding worn) = .ok () after ∧
        after.database ⟨0, []⟩ =
          worn.insertAll [(Database.keyOf .zeros 0, (Record.mk "b" []).encode)] ∧
        (fieldsOf (fun _ => .zeros) "a").outcome after = .ok none := by
  have ready := Session.ready_holding worn
  have collected : (Batch.addAll {} worn (fun _ => .zeros) [⟨"b", []⟩]).map Batch.pairs =
      .ok [(Database.keyOf .zeros 0, (Record.mk "b" []).encode)] := by decide +kernel
  have lost : (worn.insertAll [(Database.keyOf .zeros 0, (Record.mk "b" []).encode)]).find
      (fun _ => .zeros) "a" = .ok none := by decide +kernel
  have taken : worn.putMany (fun _ => .zeros) Options.default.maxBatchSize [⟨"b", []⟩] =
      .ok (worn.insertAll [(Database.keyOf .zeros 0, (Record.mk "b" []).encode)]) := by
    cases added : Batch.addAll {} worn (fun _ => .zeros) [⟨"b", []⟩] with
    | error cause =>
        rw [added] at collected
        cases collected
    | ok batch =>
        rw [added] at collected
        rw [Database.putMany, added, ← Except.ok.inj collected]
        rfl
  obtain ⟨after, done, readyAfter, holds, _⟩ := putMany_ok ready taken
  refine ⟨regular_worn, by decide +kernel, by decide +kernel, after, done, holds, ?_⟩
  rw [outcome_fieldsOf readyAfter, holds, Database.fieldsOf, lost]
  rfl

end Store

end Septet
