import Septet.Proofs.Database.Write

/-!
# A batch writes what its records write one by one

A batch looks names and numbers up in the database as it was before, and remembers
the keys and numbers that it has given out.  Writing the same records one by one
looks everything up in the database as it is by then.  The two agree because what a
batch remembers makes up for what it does not see: a batch tracks the database that
the writes have led to (`Batch.Tracks`) when the pairs that it has collected lead to
that database, a name in the batch is found there under the key that the batch
remembers, any other name is found there as before, and the next number of every
hash is the greater one of the number before and the one that the batch remembers.

Tracking is kept by every further record (`Batch.Tracks.write`), so a batch comes to
the same database, or fails for the same cause, as its records do one by one
(`putMany_eq_writeEach`).  Nothing is asked of the pairs of the database; numbers
have to be left for the names that are new, and the records have to fit.
-/

set_option autoImplicit false

namespace Septet

namespace Database

/-- The database with records written one by one. -/
def writeEach (database : Database) (hash : NameHash) : List Record → Except BatchError Database
  | [] => .ok database
  | record :: rest => do
      let written ← database.write hash record
      written.writeEach hash rest

theorem insertAll_concat (database : Database) (pairs : List Pair) (pair : Pair) :
    database.insertAll (pairs ++ [pair]) = (database.insertAll pairs).insert pair.1 pair.2 := by
  simp only [insertAll, List.foldl_append, List.foldl_cons, List.foldl_nil]

end Database

namespace Batch

/-- A batch makes up for what has been written since the database was as it looks it up. -/
structure Tracks (batch : Batch) (hash : NameHash) (before now : Database) : Prop where
  /-- The pairs of the batch lead to the database. -/
  written : now = before.insertAll batch.pairs
  /-- A name in the batch could be looked up before, and is found under the key in the batch. -/
  known : ∀ name key, batch.keys.lookup name = some key →
    (∃ result, before.find hash name = .ok result) ∧
      ∃ fields, now.find hash name = .ok (some ⟨key, fields⟩)
  /-- Any other name is found as before. -/
  unknown : ∀ name, batch.keys.lookup name = none → now.find hash name = before.find hash name
  /-- The next number is the one before or the one in the batch. -/
  counted : ∀ digest, now.nextNumber digest =
    (before.nextNumber digest).map fun number => max number ((batch.numbers.lookup digest).getD 0)

theorem tracks_empty (hash : NameHash) (database : Database) :
    Tracks {} hash database database where
  written := rfl
  known := by
    intro name key found
    cases found
  unknown := fun name absent => rfl
  counted := by
    intro digest
    cases database.nextNumber digest with
    | error cause => rfl
    | ok number => simp [Except.map]

variable {batch : Batch} {hash : NameHash} {before now : Database}

/-- A batch chooses the key that the record would be written under by itself. -/
theorem Tracks.keyFor (tracks : batch.Tracks hash before now) (name : String) :
    (batch.keyFor before hash name).map Prod.fst = now.keyFor hash name := by
  unfold Batch.keyFor Database.keyFor
  cases known : batch.keys.lookup name with
  | some key =>
      obtain ⟨⟨result, earlier⟩, fields, there⟩ := tracks.known name key known
      simp only [earlier, there, Except.map]
  | none =>
      rw [tracks.unknown name known]
      cases before.find hash name with
      | error cause => rfl
      | ok result =>
          cases result with
          | some found => rfl
          | none =>
              simp only [newKey, tracks.counted (hash name)]
              cases before.nextNumber (hash name) <;> rfl

/-- What a batch does to choose a key: it takes the key that it remembers, or the one in the database,
or a new one, and then it remembers the number. -/
theorem keyFor_cases {name : String} {key : Bytes} {chosen : Batch}
    (choice : batch.keyFor before hash name = .ok (key, chosen)) :
    (batch.keys.lookup name = some key ∧ (∃ result, before.find hash name = .ok result) ∧
        chosen = batch) ∨
      (batch.keys.lookup name = none ∧ (∃ found, before.find hash name = .ok (some found) ∧
        found.key = key) ∧ chosen = batch) ∨
      (batch.keys.lookup name = none ∧ before.find hash name = .ok none ∧
        ∃ stored, before.nextNumber (hash name) = .ok stored ∧
          key = Database.keyOf (hash name)
            (max stored ((batch.numbers.lookup (hash name)).getD 0)) ∧
          chosen = { batch with numbers :=
            (hash name, max stored ((batch.numbers.lookup (hash name)).getD 0) + 1) ::
              batch.numbers }) := by
  unfold Batch.keyFor at choice
  cases found : before.find hash name with
  | error cause => simp [found] at choice
  | ok result =>
      cases known : batch.keys.lookup name with
      | some old =>
          simp only [found, known, Except.ok.injEq, Prod.mk.injEq] at choice
          obtain ⟨rfl, rfl⟩ := choice
          exact .inl ⟨rfl, ⟨result, rfl⟩, rfl⟩
      | none =>
          cases result with
          | some there =>
              simp only [found, known, Except.ok.injEq, Prod.mk.injEq] at choice
              obtain ⟨rfl, rfl⟩ := choice
              exact .inr (.inl ⟨rfl, ⟨there, rfl, rfl⟩, rfl⟩)
          | none =>
              simp only [found, known, newKey] at choice
              cases next : before.nextNumber (hash name) with
              | error cause => simp [next] at choice
              | ok stored =>
                  simp only [next, Except.ok.injEq, Prod.mk.injEq] at choice
                  obtain ⟨rfl, rfl⟩ := choice
                  exact .inr (.inr ⟨rfl, rfl, stored, rfl, rfl, rfl⟩)

/-- Choosing a key keeps what the batch has collected, and is possible for names only that could be
looked up before. -/
theorem kept_of_keyFor {name : String} {key : Bytes} {chosen : Batch}
    (choice : batch.keyFor before hash name = .ok (key, chosen)) :
    chosen.pairs = batch.pairs ∧ chosen.keys = batch.keys ∧
      ∃ result, before.find hash name = .ok result := by
  rcases keyFor_cases choice with ⟨_, earlier, rfl⟩ | ⟨_, ⟨found, there, _⟩, rfl⟩ |
    ⟨_, absent, _, _, _, rfl⟩
  · exact ⟨rfl, rfl, earlier⟩
  · exact ⟨rfl, rfl, some found, there⟩
  · exact ⟨rfl, rfl, none, absent⟩

/-! ## Further records -/

section Adding

variable (tracks : batch.Tracks hash before now) {record : Record} {key : Bytes} {chosen : Batch}
  (choice : batch.keyFor before hash record.name = .ok (key, chosen))
include tracks choice

theorem Tracks.counted_write (room : now.HasRoom (hash record.name) 1) (digest : Digest) :
    (now.insert key record.encode).nextNumber digest =
      (before.nextNumber digest).map fun number =>
        max number ((chosen.numbers.lookup digest).getD 0) := by
  rcases keyFor_cases choice with ⟨known, earlier, rfl⟩ | ⟨unknown, ⟨found, there, rfl⟩, rfl⟩ |
    ⟨unknown, absent, stored, next, rfl, rfl⟩
  · obtain ⟨_, fields, there⟩ := tracks.known _ key known
    rw [Database.nextNumber_replace there, tracks.counted]
  · rw [Database.nextNumber_replace ((tracks.unknown _ unknown).trans there), tracks.counted]
  · have current : now.nextNumber (hash record.name) =
        .ok (max stored ((batch.numbers.lookup (hash record.name)).getD 0)) := by
      rw [tracks.counted, next]
      rfl
    rw [Database.nextNumber_add current (room _ current)]
    split
    · next same =>
        subst same
        rw [next, List.lookup_cons_self, Option.getD_some, Except.map]
        congr 1
        omega
    · next different =>
        rw [tracks.counted digest, List.lookup_cons, beq_false_of_ne different]

/-- A batch with one more record tracks the database with this record written. -/
theorem Tracks.write (fits : record.Fits) (room : now.HasRoom (hash record.name) 1) :
    Tracks { chosen with
        pairs := chosen.pairs ++ [(key, record.encode)]
        keys := (record.name, key) :: chosen.keys }
      hash before (now.insert key record.encode) := by
  have alone : now.keyFor hash record.name = .ok key := by
    rw [← tracks.keyFor, choice]
    rfl
  have effect := Database.find_write alone room fits
  obtain ⟨pairs, keys, earlier⟩ := kept_of_keyFor choice
  constructor
  · rw [Database.insertAll_concat, pairs, ← tracks.written]
  · intro name other found
    rw [List.lookup_cons] at found
    rw [effect]
    split
    · next same =>
        subst same
        rw [BEq.rfl] at found
        cases found
        exact ⟨earlier, record.fields, rfl⟩
    · next different =>
        rw [beq_false_of_ne different, keys] at found
        exact tracks.known name other found
  · intro name absent
    rw [List.lookup_cons] at absent
    rw [effect]
    split
    · next same =>
        subst same
        simp at absent
    · next different =>
        rw [beq_false_of_ne different, keys] at absent
        exact tracks.unknown name absent
  · intro digest
    exact tracks.counted_write choice room digest

end Adding

/-- **A batch comes to the database that its records come to one by one.** -/
theorem Tracks.addAll (records : List Record) : ∀ {batch : Batch} {now : Database},
    batch.Tracks hash before now → (∀ record ∈ records, record.Fits) →
      (∀ record ∈ records, now.HasRoom (hash record.name) records.length) →
        (batch.addAll before hash records).map (fun batch => before.insertAll batch.pairs) =
          now.writeEach hash records := by
  induction records with
  | nil =>
      intro batch now tracks _ _
      rw [Batch.addAll, Database.writeEach, tracks.written]
      rfl
  | cons record rest ih =>
      intro batch now tracks fits room
      have alone := tracks.keyFor record.name
      simp only [Batch.addAll, add, Database.writeEach, Database.write, ← alone]
      cases choice : batch.keyFor before hash record.name with
      | error cause => rfl
      | ok result =>
          obtain ⟨key, chosen⟩ := result
          rw [choice] at alone
          have one : now.HasRoom (hash record.name) 1 :=
            (room record List.mem_cons_self).mono (by simp)
          exact ih (tracks.write choice (fits record List.mem_cons_self) one)
            (fun other member => fits other (List.mem_cons_of_mem _ member))
            (fun other member => Database.hasRoom_write alone.symm one
              (room other (List.mem_cons_of_mem _ member)))

end Batch

/-! ## Batches within the limit -/

/-- A number that is less than an integer is less than greater ones. -/
theorem Number.lessThan_mono {number : Number} {bound greater : Int} (less : bound ≤ greater)
    (below : number.lessThan bound = true) : number.lessThan greater = true := by
  cases number with
  | bool value =>
      simp only [Number.lessThan, decide_eq_true_eq] at below ⊢
      omega
  | int value =>
      simp only [Number.lessThan, decide_eq_true_eq] at below ⊢
      omega
  | float value =>
      cases value with
      | nan => cases below
      | infinite negative => exact below
      | finite negative significand exponent =>
          simp only [Number.lessThan, Binary64.lessThan] at below ⊢
          split at below
          · next whole =>
              simp only [whole, if_true, decide_eq_true_eq] at below ⊢
              omega
          · next fraction =>
              simp only [fraction, if_false, decide_eq_true_eq] at below ⊢
              exact Int.lt_of_lt_of_le below
                (Int.mul_le_mul_of_nonneg_right less (Int.pow_nonneg (by decide)))

theorem Number.within_one {limit : Number} {count : Nat}
    (within : limit.lessThan count = false) (some : 0 < count) : limit.lessThan 1 = false := by
  rw [Bool.eq_false_iff] at within ⊢
  exact fun below => within (Number.lessThan_mono (by omega) below)

namespace Database

variable {database : Database} {hash : NameHash} {limit : Number} {records : List Record}

/-- **A batch within the limit writes what its records write one by one.** -/
theorem putMany_eq_writeEach (within : limit.lessThan records.length = false)
    (fits : ∀ record ∈ records, record.Fits)
    (room : ∀ record ∈ records, database.HasRoom (hash record.name) records.length) :
    database.putMany hash limit records = database.writeEach hash records := by
  rw [← (Batch.tracks_empty hash database).addAll records fits room, putMany, within]
  simp only [Bool.false_eq_true, if_false]
  cases Batch.addAll {} database hash records <;> rfl

theorem put_eq_write {record : Record} (within : limit.lessThan 1 = false) :
    database.put hash limit record = database.write hash record := by
  have choice := (Batch.tracks_empty hash database).keyFor record.name
  rw [put, putMany, List.length_singleton, Int.natCast_one, within]
  simp only [Bool.false_eq_true, if_false, Batch.addAll, Batch.add, write, ← choice]
  cases chosen : Batch.keyFor {} database hash record.name with
  | error cause => rfl
  | ok result =>
      obtain ⟨pairs, _, _⟩ := Batch.kept_of_keyFor chosen
      simp only [bind, Except.bind, pairs]
      rfl

/-! ## What is found after a batch -/

/-- The fields of the last of some records with a name. -/
def lastFields (name : String) (records : List Record) : Option (List Bytes) :=
  (records.reverse.find? fun record => record.name = name).map Record.fields

theorem lastFields_cons (name : String) (record : Record) (rest : List Record) :
    lastFields name (record :: rest) =
      (lastFields name rest).or (if record.name = name then some record.fields else none) := by
  simp only [lastFields, List.reverse_cons, List.find?_append, List.find?_singleton,
    decide_eq_true_eq]
  cases rest.reverse.find? fun record => record.name = name with
  | some found => rfl
  | none =>
      simp only [Option.none_or, Option.map_none]
      split <;> rfl

/-- The fields of the record of a name. -/
def fieldsOf (database : Database) (hash : NameHash) (name : String) :
    Except RecordError (Option (List Bytes)) :=
  (database.find hash name).map (Option.map Found.fields)

/-- **After records have been written one by one, their names have the fields that were written
last, and nothing else is changed.** -/
theorem fieldsOf_writeEach (records : List Record) : ∀ {database after : Database},
    (∀ record ∈ records, record.Fits) →
      (∀ record ∈ records, database.HasRoom (hash record.name) records.length) →
        database.writeEach hash records = .ok after → ∀ name,
          after.fieldsOf hash name =
            match lastFields name records with
            | some fields => .ok (some fields)
            | none => database.fieldsOf hash name := by
  induction records with
  | nil =>
      intro database after _ _ same name
      cases same
      rfl
  | cons record rest ih =>
      intro database after fits room written name
      simp only [writeEach, write] at written
      cases chosen : database.keyFor hash record.name with
      | error cause =>
          rw [chosen] at written
          cases written
      | ok key =>
          rw [chosen] at written
          have one : database.HasRoom (hash record.name) 1 :=
            (room record List.mem_cons_self).mono (by simp)
          have later := ih (fun other member => fits other (List.mem_cons_of_mem _ member))
            (fun other member => hasRoom_write chosen one
              (room other (List.mem_cons_of_mem _ member))) written name
          rw [later, lastFields_cons]
          cases lastFields name rest with
          | some fields => rfl
          | none =>
              have effect := find_write chosen one (fits record List.mem_cons_self) name
              simp only [Option.none_or, fieldsOf, effect]
              by_cases equal : record.name = name
              · subst equal
                simp only [if_true, Except.map, Option.map_some]
              · simp only [equal, Ne.symm equal, if_false]

end Database

end Septet
