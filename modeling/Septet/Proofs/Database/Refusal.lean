import Septet.Proofs.Database.OneByOne

/-!
# Refused batches

Two things in a database can keep a record from being put in a batch: a value that
holds no record and comes before any record of its name (`Blocked`), or a key without
a number under the hash of a name that is neither stored nor in the batch
(`Rejected`).  The first such value or key is the cause (`Refused`), a record is
rejected exactly when it is refused for some cause (`rejected_iff_exists_refused`),
and the first record of a batch that is refused decides why the batch fails
(`addAll_eq_error_iff`, `putMany_eq_error_iff`).
-/

set_option autoImplicit false

namespace Septet

/-- A pair holds a record of a name. -/
def Holds (name : String) (pair : Pair) : Prop :=
  ∃ fields, Record.decode pair.2 = .ok ⟨name, fields⟩

/-- A value that holds no record comes before any record of a name. -/
def Blocked (name : String) (pairs : List Pair) : Prop :=
  ∃ before pair after, pairs = before ++ pair :: after ∧
    (∃ cause, Record.decode pair.2 = .error cause) ∧ ∀ earlier ∈ before, ¬Holds name earlier

/-- A record cannot be put in a batch behind others: its name is blocked, or it is neither stored
nor in the batch and some key under its hash has no number. -/
def Rejected (database : Database) (hash : NameHash) (earlier : List Record) (record : Record) :
    Prop :=
  Blocked record.name (database.under (hash record.name).bytes) ∨
    (∀ pair ∈ database.under (hash record.name).bytes, ¬Holds record.name pair) ∧
      (∀ other ∈ earlier, other.name ≠ record.name) ∧
        ∃ pair ∈ database.under (hash record.name).bytes,
          ∃ cause, Quantity.decode .bits64 pair.1 0 = .error cause

/-- Why a record cannot be put in a batch behind others: the first value that holds no record, when
only records of other names come before it, or else the first key without a number. -/
inductive Refused (database : Database) (hash : NameHash) (earlier : List Record)
    (record : Record) : BatchError → Prop where
  | record {before : List Pair} {key value : Bytes} {after : List Pair} {cause : RecordError}
      (split : database.under (hash record.name).bytes = before ++ (key, value) :: after)
      (broken : Record.decode value = .error cause)
      (passed : Database.Passed record.name before) :
      Refused database hash earlier record (.record cause)
  | number {before : List Pair} {key value : Bytes} {after : List Pair} {cause : StreamError}
      (absent : Database.Passed record.name (database.under (hash record.name).bytes))
      (new : ∀ other ∈ earlier, other.name ≠ record.name)
      (split : database.under (hash record.name).bytes = before ++ (key, value) :: after)
      (broken : Quantity.decode .bits64 key 0 = .error cause)
      (numbered : Database.Numbered before) :
      Refused database hash earlier record (.number cause)

/-! ## Causes -/

/-- A search that is blocked fails, and a search that fails is blocked. -/
theorem blocked_iff_exists_error {name : String} {pairs : List Pair} :
    Blocked name pairs ↔ ∃ cause, Database.firstNamed name pairs = .error cause := by
  constructor
  · rintro ⟨before, ⟨key, value⟩, after, rfl, ⟨cause, broken⟩, others⟩
    -- the search ends at this value or at an earlier one, which does not hold the name either
    rcases Database.passed_or_stops name before with
      passed | ⟨first, stop, held, rest, rfl, passed, earlier | ⟨fields, holds⟩⟩
    · exact ⟨cause, Database.firstNamed_eq_error_iff.mpr
        ⟨before, key, value, after, rfl, broken, passed⟩⟩
    · obtain ⟨actual, broken⟩ := earlier
      refine ⟨actual, Database.firstNamed_eq_error_iff.mpr
        ⟨first, stop, held, rest ++ (key, value) :: after, ?_, broken, passed⟩⟩
      rw [List.append_assoc, List.cons_append]
    · have member : (stop, held) ∈ first ++ (stop, held) :: rest :=
        List.mem_append_right _ List.mem_cons_self
      exact absurd ⟨fields, holds⟩ (others _ member)
  · rintro ⟨cause, fails⟩
    obtain ⟨before, key, value, after, rfl, broken, passed⟩ :=
      Database.firstNamed_eq_error_iff.mp fails
    refine ⟨before, (key, value), after, rfl, ⟨cause, broken⟩, ?_⟩
    rintro earlier member ⟨fields, holds⟩
    obtain ⟨record, other, different⟩ := passed earlier member
    cases holds.symm.trans other
    exact different rfl

/-- Pairs that hold no record of a name are passed over, unless they block it. -/
theorem passed_of_not_blocked {name : String} {pairs : List Pair} (free : ¬Blocked name pairs)
    (absent : ∀ pair ∈ pairs, ¬Holds name pair) : Database.Passed name pairs := by
  rcases Database.passed_or_stops name pairs with
    passed | ⟨before, key, value, after, rfl, passed, ⟨cause, broken⟩ | ⟨fields, holds⟩⟩
  · exact passed
  · exact absurd (blocked_iff_exists_error.mpr ⟨cause, Database.firstNamed_eq_error_iff.mpr
      ⟨before, key, value, after, rfl, broken, passed⟩⟩) free
  · have inside : (key, value) ∈ before ++ (key, value) :: after :=
      List.mem_append_right _ List.mem_cons_self
    exact absurd ⟨fields, holds⟩ (absent _ inside)

theorem not_holds_of_passed {name : String} {pairs : List Pair}
    (passed : Database.Passed name pairs) : ∀ pair ∈ pairs, ¬Holds name pair := by
  rintro pair member ⟨fields, holds⟩
  obtain ⟨record, other, different⟩ := passed pair member
  cases holds.symm.trans other
  exact different rfl

variable {database : Database} {hash : NameHash} {earlier : List Record} {record : Record}

/-- A record is refused for a value when the search for its name fails there. -/
theorem refused_record_iff {cause : RecordError} :
    Refused database hash earlier record (.record cause) ↔
      database.find hash record.name = .error cause := by
  rw [Database.find_eq_error_iff, Database.firstNamed_eq_error_iff]
  constructor
  · rintro (⟨split, broken, passed⟩ | _)
    exact ⟨_, _, _, _, split, broken, passed⟩
  · rintro ⟨before, key, value, after, split, broken, passed⟩
    exact .record split broken passed

/-- A record is refused for a key when it needs a new number and the key stands in its way. -/
theorem refused_number_iff {cause : StreamError} :
    Refused database hash earlier record (.number cause) ↔
      database.find hash record.name = .ok none ∧
        (∀ other ∈ earlier, other.name ≠ record.name) ∧
          database.nextNumber (hash record.name) = .error cause := by
  rw [Database.find_eq_none_iff, Database.nextNumber, Database.numberAfter_eq_error_iff]
  constructor
  · rintro (_ | ⟨absent, new, split, broken, numbered⟩)
    exact ⟨absent, new, _, _, _, _, split, broken, numbered⟩
  · rintro ⟨absent, new, before, key, value, after, split, broken, numbered⟩
    exact .number absent new split broken numbered

theorem not_refused_tooMany {count : Nat} {limit : Number} :
    ¬Refused database hash earlier record (.tooMany count limit) := by
  intro refused
  cases refused

/-- **A record is rejected exactly when it is refused for some cause.** -/
theorem rejected_iff_exists_refused :
    Rejected database hash earlier record ↔ ∃ cause, Refused database hash earlier record cause := by
  constructor
  · intro rejected
    by_cases blocked : Blocked record.name (database.under (hash record.name).bytes)
    · obtain ⟨cause, fails⟩ := blocked_iff_exists_error.mp blocked
      exact ⟨_, refused_record_iff.mpr (Database.find_eq_error_iff.mpr fails)⟩
    · obtain ⟨absent, new, pair, member, cause, broken⟩ := rejected.resolve_left blocked
      have none := Database.find_eq_none_iff.mpr (passed_of_not_blocked blocked absent)
      cases next : database.nextNumber (hash record.name) with
      | error actual => exact ⟨_, refused_number_iff.mpr ⟨none, new, next⟩⟩
      | ok number =>
          obtain ⟨decoded, found⟩ := Database.numbered_of_numberAfter next pair member
          cases broken.symm.trans found
  · rintro ⟨_, refused⟩
    cases refused with
    | record split broken passed =>
        exact .inl (blocked_iff_exists_error.mpr ⟨_, Database.firstNamed_eq_error_iff.mpr
          ⟨_, _, _, _, split, broken, passed⟩⟩)
    | number absent new split broken numbered =>
        exact .inr ⟨not_holds_of_passed absent, new, _,
          split ▸ List.mem_append_right _ List.mem_cons_self, _, broken⟩

/-! ## Batches -/

namespace Batch

/-- The names that a batch remembers are those of the records that have been put in it. -/
def Lists (batch : Batch) (earlier : List Record) : Prop :=
  ∀ name, batch.keys.lookup name = none ↔ ∀ other ∈ earlier, other.name ≠ name

variable {batch : Batch} (lists : batch.Lists earlier)
include lists

/-- No key can be chosen for a record that is refused, for the cause of the refusal. -/
theorem keyFor_eq_error_iff {cause : BatchError} :
    batch.keyFor database hash record.name = .error cause ↔
      Refused database hash earlier record cause := by
  -- the batch goes by the name being found, then by its being in the batch, then by the number
  have listed := lists record.name
  unfold Batch.keyFor
  cases cause with
  | tooMany count limit =>
      refine iff_of_false ?_ not_refused_tooMany
      cases database.find hash record.name with
      | error actual => simp
      | ok result =>
          cases batch.keys.lookup record.name <;> cases result <;> simp [newKey]
          cases database.nextNumber (hash record.name) <;> simp
  | record cause =>
      rw [refused_record_iff]
      cases database.find hash record.name with
      | error actual => simp
      | ok result =>
          cases batch.keys.lookup record.name <;> cases result <;> simp [newKey]
          cases database.nextNumber (hash record.name) <;> simp
  | number cause =>
      rw [refused_number_iff, ← listed]
      cases database.find hash record.name with
      | error actual => simp
      | ok result =>
          cases batch.keys.lookup record.name <;> cases result <;> simp [newKey]
          cases database.nextNumber (hash record.name) <;> simp

theorem Lists.add {key : Bytes} {chosen : Batch}
    (choice : batch.keyFor database hash record.name = .ok (key, chosen)) :
    Lists { chosen with
        pairs := chosen.pairs ++ [(key, record.encode)]
        keys := (record.name, key) :: chosen.keys }
      (earlier ++ [record]) := by
  obtain ⟨_, keys, _⟩ := kept_of_keyFor choice
  intro name
  rw [List.lookup_cons, keys]
  by_cases equal : name = record.name
  · subst equal
    rw [BEq.rfl]
    exact iff_of_false (Option.some_ne_none key)
      fun new => new record (List.mem_append_right _ List.mem_cons_self) rfl
  · rw [beq_false_of_ne equal]
    simp only [lists name, List.mem_append, List.mem_singleton]
    constructor
    · rintro new other (member | rfl)
      · exact new other member
      · exact Ne.symm equal
    · exact fun new other member => new other (.inl member)

end Batch

/-- The first record of some records that is refused behind given ones, and why. -/
def FirstRefused (database : Database) (hash : NameHash) (earlier records : List Record)
    (cause : BatchError) : Prop :=
  ∃ before record after, records = before ++ record :: after ∧
    (∀ taken other rest, before = taken ++ other :: rest →
      ¬Rejected database hash (earlier ++ taken) other) ∧
    Refused database hash (earlier ++ before) record cause

/-- Behind a record that is not rejected, the next ones are judged behind that record too. -/
theorem firstRefused_cons {records : List Record} {cause : BatchError}
    (accepted : ¬Rejected database hash earlier record) :
    FirstRefused database hash earlier (record :: records) cause ↔
      FirstRefused database hash (earlier ++ [record]) records cause := by
  constructor
  · rintro ⟨before, other, after, split, none, refused⟩
    cases before with
    | nil =>
        cases split
        rw [List.append_nil] at refused
        exact absurd (rejected_iff_exists_refused.mpr ⟨cause, refused⟩) accepted
    | cons first before =>
        cases split
        refine ⟨before, other, after, rfl, ?_, by simpa using refused⟩
        rintro taken next rest rfl
        simpa using none (record :: taken) next rest rfl
  · rintro ⟨before, other, after, rfl, none, refused⟩
    refine ⟨record :: before, other, after, rfl, ?_, by simpa using refused⟩
    intro taken next rest split
    cases taken with
    | nil =>
        cases split
        simpa using accepted
    | cons first taken =>
        cases split
        simpa using none taken next rest rfl

/-- **A batch fails exactly for the cause of the first of its records that is refused.** -/
theorem Batch.addAll_eq_error_iff {cause : BatchError} (records : List Record) :
    ∀ {batch : Batch} {earlier : List Record}, batch.Lists earlier →
      (batch.addAll database hash records = .error cause ↔
        FirstRefused database hash earlier records cause) := by
  induction records with
  | nil =>
      intro batch earlier _
      refine iff_of_false (fun same => by cases same) ?_
      rintro ⟨before, record, after, split, _⟩
      exact absurd split (by simp)
  | cons record rest ih =>
      intro batch earlier lists
      rw [Batch.addAll, Batch.add]
      cases choice : batch.keyFor database hash record.name with
      | error actual =>
          have refused := (Batch.keyFor_eq_error_iff lists).mp choice
          constructor
          · intro same
            cases same
            refine ⟨[], record, rest, rfl, ?_, by simpa using refused⟩
            intro taken other later split
            exact absurd split (by simp)
          · rintro ⟨before, other, after, split, none, again⟩
            cases before with
            | nil =>
                cases split
                rw [List.append_nil] at again
                cases choice.symm.trans ((Batch.keyFor_eq_error_iff lists).mpr again)
                rfl
            | cons first before =>
                cases split
                have accepted := none [] record before rfl
                rw [List.append_nil] at accepted
                exact absurd (rejected_iff_exists_refused.mpr ⟨_, refused⟩) accepted
      | ok result =>
          obtain ⟨key, chosen⟩ := result
          have accepted : ¬Rejected database hash earlier record := by
            intro rejected
            obtain ⟨actual, refused⟩ := rejected_iff_exists_refused.mp rejected
            cases choice.symm.trans ((Batch.keyFor_eq_error_iff lists).mpr refused)
          rw [firstRefused_cons accepted]
          exact ih (lists.add choice)

/-- **A batch of records is refused for being too long, or for its first refused record.** -/
theorem Database.putMany_eq_error_iff {limit : Number} {records : List Record}
    {cause : BatchError} :
    database.putMany hash limit records = .error cause ↔
      limit.lessThan records.length = true ∧ cause = .tooMany records.length limit ∨
        limit.lessThan records.length = false ∧ FirstRefused database hash [] records cause := by
  have none : Batch.Lists {} ([] : List Record) := fun name => by simp
  rw [← Batch.addAll_eq_error_iff records none, Database.putMany]
  cases limit.lessThan records.length with
  | true => simp [eq_comm]
  | false =>
      simp only [Bool.false_eq_true, if_false, false_and, false_or, true_and]
      cases Batch.addAll {} database hash records <;> simp [bind, Except.bind]

/-- Some record is rejected behind those before it exactly when some record is the first to be. -/
theorem exists_rejected_iff (records : List Record) : ∀ {earlier : List Record},
    (∃ before record after, records = before ++ record :: after ∧
        Rejected database hash (earlier ++ before) record) ↔
      ∃ cause, FirstRefused database hash earlier records cause := by
  induction records with
  | nil =>
      intro earlier
      constructor
      · rintro ⟨before, record, after, split, _⟩
        exact absurd split (by simp)
      · rintro ⟨cause, before, record, after, split, _⟩
        exact absurd split (by simp)
  | cons record rest ih =>
      intro earlier
      by_cases rejected : Rejected database hash earlier record
      · refine iff_of_true ⟨[], record, rest, rfl, by simpa using rejected⟩ ?_
        obtain ⟨cause, refused⟩ := rejected_iff_exists_refused.mp rejected
        refine ⟨cause, [], record, rest, rfl, ?_, by simpa using refused⟩
        intro taken other later split
        exact absurd split (by simp)
      · simp only [firstRefused_cons rejected, ← ih]
        constructor
        · rintro ⟨before, other, after, split, refused⟩
          cases before with
          | nil =>
              cases split
              exact absurd (by simpa using refused) rejected
          | cons first before =>
              cases split
              exact ⟨before, other, after, rfl, by simpa using refused⟩
        · rintro ⟨before, other, after, rfl, refused⟩
          exact ⟨record :: before, other, after, rfl, by simpa using refused⟩

end Septet
