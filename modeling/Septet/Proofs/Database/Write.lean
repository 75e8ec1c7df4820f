import Septet.Database.Batch
import Septet.Proofs.Database.Scan
import Septet.Proofs.Record.RoundTrip

/-!
# Writing one record

A record is written under the key that its name has, or else under a new one
(`keyFor`).  Whatever else the database holds, also pairs that hold no record or have
no number, and several pairs for one name, the write changes what is found for this
name and for no other (`find_write`): a replaced pair held a record of the same name,
and a new pair comes to a hash under which every pair holds a record of some other
name.  The next number under a hash grows by one when the write takes it, and stays
as it is otherwise (`nextNumber_add`, `nextNumber_replace`).  Erasing the record of a name does not
change what is found for other names (`find_erase`).

A new key is told from those that are there by its number, so the number has to be
one of 64 bits; `HasRoom` says for how many more records that is so.
-/

set_option autoImplicit false

namespace Septet.Database

variable {database : Database} {hash : NameHash} {name : String} {found : Found}

/-! ## What is found for a name -/

/-- A name is not found when all records under its hash have other names. -/
theorem find_eq_none_iff :
    database.find hash name = .ok none ↔ Passed name (database.under (hash name).bytes) := by
  rw [← firstNamed_eq_none_iff, find]
  cases firstNamed name (database.under (hash name).bytes) with
  | error cause => simp [bind, Except.bind]
  | ok result => cases result <;> simp [bind, Except.bind]

theorem find_eq_error_iff {cause : RecordError} :
    database.find hash name = .error cause ↔
      firstNamed name (database.under (hash name).bytes) = .error cause := by
  rw [find]
  cases firstNamed name (database.under (hash name).bytes) with
  | error actual => simp [bind, Except.bind]
  | ok result => simp [bind, Except.bind]

/-- What is found for a name is found under its hash, at the rest of its key. -/
theorem find_eq_some_iff :
    database.find hash name = .ok (some found) ↔
      ∃ rest, found.key = (hash name).bytes ++ rest ∧
        firstNamed name (database.under (hash name).bytes) = .ok (some ⟨rest, found.fields⟩) := by
  rw [find]
  cases firstNamed name (database.under (hash name).bytes) with
  | error cause => simp [bind, Except.bind]
  | ok result =>
      cases result with
      | none => simp [bind, Except.bind]
      | some first =>
          obtain ⟨rest, fields⟩ := first
          obtain ⟨key, found⟩ := found
          simp only [bind, Except.bind, Option.map_some, Except.ok.injEq, Option.some.injEq,
            Found.mk.injEq]
          constructor
          · rintro ⟨rfl, rfl⟩
            exact ⟨rest, rfl, rfl, rfl⟩
          · rintro ⟨_, rfl, rfl, rfl⟩
            exact ⟨rfl, rfl⟩

theorem find_congr {first second : Database}
    (same : first.under (hash name).bytes = second.under (hash name).bytes) :
    first.find hash name = second.find hash name := by
  simp only [find, same]

/-- What is found for a name is the record of the name that a pair of the database holds. -/
theorem exists_pair_of_find (there : database.find hash name = .ok (some found)) :
    ∃ value, (found.key, value) ∈ database.pairs ∧
      Record.decode value = .ok ⟨name, found.fields⟩ := by
  obtain ⟨rest, key, first⟩ := find_eq_some_iff.mp there
  obtain ⟨before, value, after, split, holds, _⟩ := firstNamed_eq_some_iff.mp first
  refine ⟨value, ?_, holds⟩
  rw [key]
  exact mem_under database _ |>.mp (split ▸ List.mem_append_right _ List.mem_cons_self)

/-! ## Numbers and room for them -/

theorem decode_encode_number {number : Nat} (below : number < 2 ^ 64) :
    Quantity.decode .bits64 (Quantity.encode .bits64 number) 0 =
      .ok ⟨number, (Quantity.encode .bits64 number).length⟩ := by
  have decoded := Quantity.decode_append .bits64 [] number []
  have whole : Width.bits64.reduce number = number := Quantity.reduce_natCast below
  rw [whole] at decoded
  simpa using decoded

/-- There are numbers of 64 bits for a count of new keys under a digest. -/
def HasRoom (database : Database) (digest : Digest) (count : Nat) : Prop :=
  ∀ number, database.nextNumber digest = .ok number → number + count ≤ 2 ^ 64

theorem HasRoom.mono {digest : Digest} {count fewer : Nat} (room : database.HasRoom digest count)
    (less : fewer ≤ count) : database.HasRoom digest fewer := by
  intro number next
  have enough := room number next
  omega

/-- There is room when the numbers that are in use are small enough, and the count is. -/
theorem hasRoom_of_forall_lt {digest : Digest} {count : Nat} (countable : count ≤ 2 ^ 64)
    (small : ∀ pair ∈ database.under digest.bytes, ∀ decoded,
      Quantity.decode .bits64 pair.1 0 = .ok decoded → decoded.value + count < 2 ^ 64) :
    database.HasRoom digest count := by
  intro number next
  obtain ⟨actual, result, _, _, attained⟩ :=
    numberAfter_of_numbered (numbered_of_numberAfter next) 0
  cases next.symm.trans result
  rcases attained with rfl | ⟨pair, member, decoded, found, rfl⟩
  · omega
  · have below := small pair member decoded found
    omega

/-- The next number under a digest is new there. -/
theorem new_of_nextNumber {digest : Digest} {number : Nat}
    (next : database.nextNumber digest = .ok number) (below : number < 2 ^ 64) :
    ∀ pair ∈ database.under digest.bytes, pair.1 ≠ Quantity.encode .bits64 number := by
  intro pair member same
  obtain ⟨actual, result, _, greater, _⟩ :=
    numberAfter_of_numbered (numbered_of_numberAfter next) 0
  cases next.symm.trans result
  have less := greater pair member _ (same ▸ decode_encode_number below)
  exact Nat.lt_irrefl _ less

/-! ## Replacing a record -/

section Replacing

variable (there : database.find hash name = .ok (some found))
include there

/-- Replacing the record of a name changes what is found for this name only. -/
theorem find_replace {value : Bytes} {fields : List Bytes}
    (holds : Record.decode value = .ok ⟨name, fields⟩) (other : String) :
    (database.insert found.key value).find hash other =
      if other = name then .ok (some ⟨found.key, fields⟩) else database.find hash other := by
  obtain ⟨rest, key, first⟩ := find_eq_some_iff.mp there
  by_cases alike : hash other = hash name
  · have searched := firstNamed_replace (database.sorted_under _) first holds other
    simp only [find, alike, key, under_insert, searched]
    split <;> rfl
  · have distinct : other ≠ name := fun equal => alike (congrArg hash equal)
    rw [if_neg distinct]
    exact find_congr (key ▸ under_insert_of_ne database alike rest value)

theorem nextNumber_replace (value : Bytes) (digest : Digest) :
    (database.insert found.key value).nextNumber digest = database.nextNumber digest := by
  obtain ⟨rest, key, first⟩ := find_eq_some_iff.mp there
  obtain ⟨before, old, after, split, _, _⟩ := firstNamed_eq_some_iff.mp first
  by_cases equal : digest = hash name
  · subst equal
    have member : (rest, old) ∈ database.under (hash name).bytes :=
      split ▸ List.mem_append_right _ List.mem_cons_self
    rw [nextNumber, nextNumber, key, under_insert]
    exact numberAfter_congr (keys_insertPair (database.sorted_under _) member)
  · rw [nextNumber, nextNumber, key, under_insert_of_ne database equal]

/-- **Erasing the record of a name does not change what is found for other names.** -/
theorem find_erase {other : String} (different : other ≠ name) :
    (database.erase found.key).find hash other = database.find hash other := by
  obtain ⟨rest, key, first⟩ := find_eq_some_iff.mp there
  obtain ⟨before, value, after, split, holds, _⟩ := firstNamed_eq_some_iff.mp first
  have member : (rest, value) ∈ database.under (hash name).bytes :=
    split ▸ List.mem_append_right _ List.mem_cons_self
  by_cases alike : hash other = hash name
  · -- the key is that of one pair only, and this pair holds a record of the erased name
    have theirs : ∀ pair ∈ database.under (hash name).bytes, pair.1 = rest →
        ∃ record, Record.decode pair.2 = .ok record ∧ record.name ≠ other := by
      intro pair inside atRest
      obtain rfl := (database.sorted_under _).eq_of_key inside member atRest
      exact ⟨⟨name, found.fields⟩, holds, Ne.symm different⟩
    simp only [find, alike, key, under_erase, firstNamed_filter theirs]
  · exact find_congr (key ▸ under_erase_of_ne database alike rest)

end Replacing

theorem find_delete {existed : Bool} {left : Database}
    (deleted : database.delete hash name = .ok (existed, left)) {other : String}
    (different : other ≠ name) : left.find hash other = database.find hash other := by
  unfold delete at deleted
  cases there : database.find hash name with
  | error cause =>
      rw [there] at deleted
      cases deleted
  | ok result =>
      rw [there] at deleted
      cases result with
      | none =>
          cases deleted
          rfl
      | some found =>
          cases deleted
          exact find_erase there different

/-! ## Adding a record -/

section Adding

variable {number : Nat} (next : database.nextNumber (hash name) = .ok number)
  (below : number < 2 ^ 64)
include next below

/-- Adding a record of a name that is not there changes what is found for this name only. -/
theorem find_add (absent : database.find hash name = .ok none) {value : Bytes}
    {fields : List Bytes} (holds : Record.decode value = .ok ⟨name, fields⟩) (other : String) :
    (database.insert (keyOf (hash name) number) value).find hash other =
      if other = name then .ok (some ⟨keyOf (hash name) number, fields⟩)
      else database.find hash other := by
  by_cases alike : hash other = hash name
  · have searched := firstNamed_insertPair (find_eq_none_iff.mp absent)
      (new_of_nextNumber next below) holds other
    simp only [find, alike, keyOf, under_insert, searched]
    split <;> rfl
  · have distinct : other ≠ name := fun equal => alike (congrArg hash equal)
    rw [if_neg distinct]
    exact find_congr (under_insert_of_ne database alike _ value)

/-- Adding a record takes the next number under its hash. -/
theorem nextNumber_add (value : Bytes) (digest : Digest) :
    (database.insert (keyOf (hash name) number) value).nextNumber digest =
      if digest = hash name then .ok (number + 1) else database.nextNumber digest := by
  split
  · next same =>
      subst same
      rw [nextNumber, keyOf, under_insert, numberAfter_insertPair (decode_encode_number below)
        (new_of_nextNumber next below) next]
      simp only [Except.ok.injEq]
      omega
  · next different =>
      rw [nextNumber, nextNumber, keyOf, under_insert_of_ne database different]

end Adding

/-! ## Writing a record -/

/-- The key that a record of a name is written under. -/
def keyFor (database : Database) (hash : NameHash) (name : String) : Except BatchError Bytes :=
  match database.find hash name with
  | .error cause => .error (.record cause)
  | .ok (some found) => .ok found.key
  | .ok none =>
      match database.nextNumber (hash name) with
      | .error cause => .error (.number cause)
      | .ok number => .ok (keyOf (hash name) number)

theorem keyFor_eq_ok_iff {key : Bytes} :
    database.keyFor hash name = .ok key ↔
      (∃ found, database.find hash name = .ok (some found) ∧ found.key = key) ∨
        database.find hash name = .ok none ∧
          ∃ number, database.nextNumber (hash name) = .ok number ∧
            keyOf (hash name) number = key := by
  unfold keyFor
  cases database.find hash name with
  | error cause => simp
  | ok result =>
      cases result with
      | some found => simp
      | none => cases database.nextNumber (hash name) <;> simp

/-- The database with one record written, whatever the limit on batches. -/
def write (database : Database) (hash : NameHash) (record : Record) : Except BatchError Database :=
  (database.keyFor hash record.name).map fun key => database.insert key record.encode

section Writing

variable {record : Record} {key : Bytes} (chosen : database.keyFor hash record.name = .ok key)
  (room : database.HasRoom (hash record.name) 1)
include chosen room

/-- **A write changes what is found for its name only.** -/
theorem find_write (fits : record.Fits) (other : String) :
    (database.insert key record.encode).find hash other =
      if other = record.name then .ok (some ⟨key, record.fields⟩)
      else database.find hash other := by
  have holds := Record.decode_encode fits
  rcases keyFor_eq_ok_iff.mp chosen with ⟨found, there, rfl⟩ | ⟨absent, number, next, rfl⟩
  · exact find_replace there holds other
  · exact find_add next (room number next) absent holds other

/-- A write takes at most one number of each hash. -/
theorem hasRoom_write {digest : Digest} {count : Nat} (more : database.HasRoom digest (count + 1)) :
    (database.insert key record.encode).HasRoom digest count := by
  rcases keyFor_eq_ok_iff.mp chosen with ⟨found, there, rfl⟩ | ⟨absent, number, next, rfl⟩
  · intro last result
    rw [nextNumber_replace there] at result
    have enough := more last result
    omega
  · intro last result
    rw [nextNumber_add next (room number next)] at result
    split at result
    · next same =>
        subst same
        cases result
        have enough := more number next
        omega
    · have enough := more last result
      omega

end Writing

end Septet.Database
