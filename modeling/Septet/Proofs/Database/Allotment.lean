import Mathlib.Data.List.Basic
import Mathlib.Tactic.MkIffOfInductiveProp
import Septet.Proofs.Database.Isolation
import Septet.Proofs.Quantity.Canonical

/-!
# The keys that a batch gives to its names

A name of a batch that is stored keeps its key.  The names of a hash that are not stored
get numbers one after the other, in the order in which they first occur in the batch, and
the first of them is the next number of the hash (`Database.Allotted`).  A batch that is
taken writes each record under the key that is allotted to its name, and nothing else
(`Database.exists_allotted_of_putMany`): what a batch remembers while it is put together
says so of the records before (`Batch.Allots`), and every further record keeps that
(`Batch.Allots.add`).

A key has its number reduced to 64 bits.  The numbers of new names are greater than those
that are stored, so a key of a new name is in use already exactly if its number is beyond
64 bits and the key of what is left of it is in use (`Database.uses_keyOf_iff`).  While
there is room for the new names (`Database.RoomFor`), their keys are not in use, and
different names have different keys (`Database.Allotted.ne`), and no pair of another name is
overwritten (`Database.mem_insertAll_of_written`).
-/

set_option autoImplicit false

namespace Septet

namespace Database

/-! ## New names -/

section NewNames

variable (database : Database) (hash : NameHash) (digest : Digest)

/-- Names with that of one more record, if this is not stored, has the digest and is not there. -/
def addNew (names : List String) (record : Record) : List String :=
  if hash record.name = digest ∧ database.find hash record.name = .ok none ∧ record.name ∉ names then
    names ++ [record.name]
  else names

/-- The names of records that have a digest and are not stored, in the order in which they first
occur. -/
def newNames (records : List Record) : List String :=
  records.foldl (database.addNew hash digest) []

end NewNames

variable {database : Database} {hash : NameHash} {digest : Digest} {records : List Record}
  {name : String} {key : Bytes}

theorem newNames_concat (record : Record) :
    database.newNames hash digest (records ++ [record]) =
      database.addNew hash digest (database.newNames hash digest records) record := by
  rw [newNames, List.foldl_append, ← newNames, List.foldl_cons, List.foldl_nil]

/-- A name that is stored, that has another digest or that is there already is not added. -/
theorem newNames_concat_of_old {record : Record}
    (old : hash record.name = digest → database.find hash record.name = .ok none →
      record.name ∈ database.newNames hash digest records) :
    database.newNames hash digest (records ++ [record]) = database.newNames hash digest records := by
  rw [newNames_concat, addNew, if_neg fun new => new.2.2 (old new.1 new.2.1)]

theorem newNames_concat_of_new {record : Record}
    (absent : database.find hash record.name = .ok none)
    (missing : record.name ∉ database.newNames hash (hash record.name) records) :
    database.newNames hash (hash record.name) (records ++ [record]) =
      database.newNames hash (hash record.name) records ++ [record.name] := by
  rw [newNames_concat, addNew, if_pos ⟨rfl, absent, missing⟩]

theorem mem_newNames : name ∈ database.newNames hash digest records ↔
    (∃ record ∈ records, record.name = name) ∧ hash name = digest ∧
      database.find hash name = .ok none := by
  induction records using List.reverseRecOn with
  | nil => simp [newNames]
  | append_singleton records record ih =>
      have occurs : (∃ other ∈ records ++ [record], other.name = name) ↔
          (∃ other ∈ records, other.name = name) ∨ record.name = name := by
        simp only [List.mem_append, List.mem_singleton, or_and_right, exists_or, exists_eq_left]
      rw [newNames_concat, addNew, occurs]
      split
      · next new =>
          rw [List.mem_append, List.mem_singleton, ih]
          constructor
          · rintro (⟨occurs, rest⟩ | rfl)
            · exact ⟨.inl occurs, rest⟩
            · exact ⟨.inr rfl, new.1, new.2.1⟩
          · rintro ⟨occurs | rfl, rest⟩
            · exact .inl ⟨occurs, rest⟩
            · exact .inr rfl
      · next old =>
          refine ih.trans ⟨fun ⟨occurs, rest⟩ => ⟨.inl occurs, rest⟩, ?_⟩
          rintro ⟨occurs | rfl, rest⟩
          · exact ⟨occurs, rest⟩
          · -- the name is among the others already, since it would have been added else
            by_contra missing
            exact old ⟨rest.1, rest.2, fun member => missing (ih.mp member)⟩

/-- One more record leaves the new names before it in their places. -/
theorem newNames_prefix (record : Record) :
    database.newNames hash digest records <+: database.newNames hash digest (records ++ [record]) := by
  rw [newNames_concat, addNew]
  split
  · exact List.prefix_append _ _
  · exact List.prefix_rfl

/-! ## Allotted keys -/

/-- The key that a name has in a batch of records. -/
@[mk_iff]
inductive Allotted (database : Database) (hash : NameHash) (records : List Record) (name : String) :
    Bytes → Prop where
  /-- A name that is stored keeps its key. -/
  | stored {found : Found} (there : database.find hash name = .ok (some found)) :
      Allotted database hash records name found.key
  /-- A new name gets the number of its place behind the numbers of its hash. -/
  | new {first : Nat} (new : name ∈ database.newNames hash (hash name) records)
      (next : database.nextNumber (hash name) = .ok first) :
      Allotted database hash records name
        (keyOf (hash name) (first + (database.newNames hash (hash name) records).idxOf name))

/-- One more record does not change the keys of the names before it. -/
theorem Allotted.concat (allotted : database.Allotted hash records name key) (record : Record) :
    database.Allotted hash (records ++ [record]) name key := by
  cases allotted with
  | stored there => exact .stored there
  | new new next =>
      have kept : database.newNames hash (hash name) records <+:
          database.newNames hash (hash name) (records ++ [record]) := newNames_prefix record
      obtain ⟨later, names⟩ := kept
      have place : (database.newNames hash (hash name) records ++ later).idxOf name =
          (database.newNames hash (hash name) records).idxOf name := List.idxOf_append_of_mem new
      rw [names] at place
      rw [← place]
      exact .new (names ▸ List.mem_append_left _ new) next

end Database

/-! ## What a batch remembers -/

/-- A batch of some records has written each of them under the key that is allotted to its name. -/
structure Batch.Allots (batch : Batch) (database : Database) (hash : NameHash)
    (records : List Record) : Prop where
  written : List.Forall₂ (fun record pair =>
    database.Allotted hash records record.name pair.1 ∧ pair.2 = record.encode) records batch.pairs
  /-- The batch remembers a key for each name, the one that is allotted to it. -/
  known : ∀ name, match batch.keys.lookup name with
    | some key => (∃ record ∈ records, record.name = name) ∧
        database.Allotted hash records name key
    | none => ∀ record ∈ records, record.name ≠ name
  /-- The next number of a hash comes behind those of its new names. -/
  counted : ∀ digest first, database.nextNumber digest = .ok first →
    max first ((batch.numbers.lookup digest).getD 0) =
      first + (database.newNames hash digest records).length

namespace Batch

variable {database : Database} {hash : NameHash} {batch : Batch} {seen : List Record}

theorem allots_empty (database : Database) (hash : NameHash) : Allots {} database hash [] where
  written := .nil
  known := fun name => List.forall_mem_nil _
  counted := by
    intro digest first _
    exact Nat.max_zero first

section Adding

variable (allots : batch.Allots database hash seen) {record : Record} {key : Bytes} {chosen : Batch}
include allots

/-- A name that the batch does not remember is not among the new names. -/
theorem Allots.not_mem_newNames {name : String} (unknown : batch.keys.lookup name = none)
    (digest : Digest) : name ∉ database.newNames hash digest seen := by
  have others := allots.known name
  rw [unknown] at others
  intro member
  obtain ⟨⟨other, inside, same⟩, _⟩ := Database.mem_newNames.mp member
  exact others other inside same

variable (choice : batch.keyFor database hash record.name = .ok (key, chosen))
include choice

/-- The key that is chosen for a record is allotted to its name. -/
theorem Allots.allotted : database.Allotted hash (seen ++ [record]) record.name key := by
  rcases keyFor_cases choice with ⟨known, _⟩ | ⟨_, ⟨found, there, rfl⟩, _⟩ |
    ⟨unknown, absent, first, next, rfl, _⟩
  · have remembered := allots.known record.name
    rw [known] at remembered
    exact remembered.2.concat record
  · exact .stored there
  · have missing := allots.not_mem_newNames unknown (hash record.name)
    have names := Database.newNames_concat_of_new absent missing
    have place : (database.newNames hash (hash record.name) (seen ++ [record])).idxOf record.name =
        (database.newNames hash (hash record.name) seen).length := by
      rw [names, List.idxOf_append_of_notMem missing, List.idxOf_cons_self, Nat.add_zero]
    rw [allots.counted _ _ next, ← place]
    exact .new (names ▸ List.mem_append_right _ (List.mem_singleton_self _)) next

/-- The numbers that are remembered come behind those of the new names. -/
theorem Allots.counted_of_keyFor {digest : Digest} {first : Nat}
    (next : database.nextNumber digest = .ok first) :
    max first ((chosen.numbers.lookup digest).getD 0) =
      first + (database.newNames hash digest (seen ++ [record])).length := by
  have counted := allots.counted digest first next
  rcases keyFor_cases choice with ⟨known, _, rfl⟩ | ⟨_, ⟨found, there, _⟩, rfl⟩ |
    ⟨unknown, absent, stored, same, _, rfl⟩
  · have remembered := allots.known record.name
    rw [known] at remembered
    rw [Database.newNames_concat_of_old fun under absent =>
      Database.mem_newNames.mpr ⟨remembered.1, under, absent⟩]
    exact counted
  · rw [Database.newNames_concat_of_old fun _ absent => by cases there.symm.trans absent]
    exact counted
  · by_cases under : digest = hash record.name
    · subst under
      cases next.symm.trans same
      rw [Database.newNames_concat_of_new absent (allots.not_mem_newNames unknown _),
        List.lookup_cons_self, Option.getD_some, counted, List.length_append, List.length_singleton,
        ← Nat.add_assoc]
      exact Nat.max_eq_right (by omega)
    · rw [Database.newNames_concat_of_old fun same _ => absurd same.symm under, List.lookup_cons,
        beq_false_of_ne under]
      exact counted

/-- **One more record is written under the key that is allotted to its name.** -/
theorem Allots.add : Allots { chosen with
      pairs := chosen.pairs ++ [(key, record.encode)]
      keys := (record.name, key) :: chosen.keys }
    database hash (seen ++ [record]) := by
  have allotted := allots.allotted choice
  obtain ⟨pairs, keys, _⟩ := kept_of_keyFor choice
  refine ⟨?_, fun name => ?_, fun digest first next => allots.counted_of_keyFor choice next⟩
  · rw [pairs]
    refine List.rel_append (allots.written.imp fun _ _ both => ?_) (.cons ⟨allotted, rfl⟩ .nil)
    exact ⟨both.1.concat record, both.2⟩
  · have remembered := allots.known name
    rw [List.lookup_cons, keys]
    by_cases same : name = record.name
    · subst same
      rw [BEq.rfl]
      exact ⟨⟨record, List.mem_append_right _ (List.mem_singleton_self _), rfl⟩, allotted⟩
    · rw [beq_false_of_ne same]
      cases known : batch.keys.lookup name with
      | some other =>
          rw [known] at remembered
          obtain ⟨⟨earlier, inside, named⟩, kept⟩ := remembered
          exact ⟨⟨earlier, List.mem_append_left _ inside, named⟩, kept.concat record⟩
      | none =>
          rw [known] at remembered
          intro other member
          rcases List.mem_append.mp member with inside | last
          · exact remembered other inside
          · rw [List.mem_singleton.mp last]
            exact Ne.symm same

end Adding

/-- **A batch writes each record under the key that is allotted to its name.** -/
theorem Allots.addAll (records : List Record) : ∀ {batch collected : Batch} {seen : List Record},
    batch.Allots database hash seen → batch.addAll database hash records = .ok collected →
      collected.Allots database hash (seen ++ records) := by
  induction records with
  | nil =>
      intro batch collected seen allots same
      cases same
      rwa [List.append_nil]
  | cons record rest ih =>
      intro batch collected seen allots added
      rw [Batch.addAll, Batch.add] at added
      cases choice : batch.keyFor database hash record.name with
      | error cause =>
          rw [choice] at added
          cases added
      | ok result =>
          obtain ⟨key, chosen⟩ := result
          rw [choice] at added
          rw [List.append_cons]
          exact ih (allots.add choice) added

end Batch

namespace Database

variable {database after : Database} {hash : NameHash} {limit : Number} {records : List Record}

/-- **What a batch that is taken writes**: each record under the key that is allotted to its name. -/
theorem exists_allotted_of_putMany (taken : database.putMany hash limit records = .ok after) :
    ∃ pairs, after = database.insertAll pairs ∧
      List.Forall₂ (fun record pair =>
        database.Allotted hash records record.name pair.1 ∧ pair.2 = record.encode) records pairs := by
  unfold putMany at taken
  split at taken
  · cases taken
  · cases added : Batch.addAll {} database hash records with
    | error cause =>
        rw [added] at taken
        cases taken
    | ok batch =>
        rw [added] at taken
        cases taken
        exact ⟨batch.pairs, rfl, ((Batch.allots_empty database hash).addAll records added).written⟩

/-! ## Keys that are in use -/

/-- A pair stands at a key. -/
def Uses (database : Database) (key : Bytes) : Prop :=
  ∃ pair ∈ database.pairs, pair.1 = key

/-- The new names of records have numbers of 64 bits. -/
def RoomFor (database : Database) (hash : NameHash) (records : List Record) : Prop :=
  ∀ record ∈ records, database.HasRoom (hash record.name)
    (database.newNames hash (hash record.name) records).length

variable {digest : Digest} {name other : String} {key otherKey : Bytes}

/-- Numbers that differ by two to the 64th have the same key. -/
theorem keyOf_sub {number : Nat} (beyond : 2 ^ 64 ≤ number) :
    keyOf digest (number - 2 ^ 64) = keyOf digest number := by
  have reduced : Width.bits64.reduce ((number - 2 ^ 64 : Nat) : Int) =
      Width.bits64.reduce (number : Int) := by
    rw [Int.natCast_sub beyond]
    simp only [Width.reduce, Width.modulus]
    congr 1
    exact Int.sub_emod_right _ _
  rw [keyOf, keyOf, Quantity.encode, Quantity.encode, reduced]

/-- A number whose key is in use is less than the next one, unless it is beyond 64 bits. -/
theorem lt_of_uses {first number : Nat} (next : database.nextNumber digest = .ok first)
    (below : number < 2 ^ 64) (used : database.Uses (keyOf digest number)) : number < first := by
  obtain ⟨⟨key, value⟩, member, rfl⟩ := used
  have inside : (Quantity.encode .bits64 number, value) ∈ database.under digest.bytes :=
    (mem_under database digest.bytes).mpr member
  obtain ⟨actual, result, _, greater, _⟩ :=
    numberAfter_of_numbered (numbered_of_numberAfter next) 0
  cases next.symm.trans result
  exact greater _ inside _ (decode_encode_number below)

/-- **The key of a number that is not less than the next one is in use already exactly if the number
is beyond 64 bits and the key of what is left of it is in use.** -/
theorem uses_keyOf_iff {first number : Nat} (next : database.nextNumber digest = .ok first)
    (later : first ≤ number) :
    database.Uses (keyOf digest number) ↔
      2 ^ 64 ≤ number ∧ database.Uses (keyOf digest (number - 2 ^ 64)) := by
  constructor
  · intro used
    have beyond : 2 ^ 64 ≤ number := by
      by_contra below
      exact absurd (lt_of_uses next (Nat.lt_of_not_le below) used) (Nat.not_lt.mpr later)
    exact ⟨beyond, (keyOf_sub beyond).symm ▸ used⟩
  · rintro ⟨beyond, used⟩
    rwa [keyOf_sub beyond] at used

/-- Numbers of 64 bits have the same key under digests only if both are the same. -/
theorem keyOf_inj {first second : Digest} {number another : Nat} (below : number < 2 ^ 64)
    (anotherBelow : another < 2 ^ 64) (same : keyOf first number = keyOf second another) :
    first = second ∧ number = another := by
  obtain ⟨digests, numbers⟩ :=
    List.append_inj same (first.length_bytes.trans second.length_bytes.symm)
  have congruent := Quantity.reduce_eq_of_encode_eq numbers
  have whole : Width.bits64.reduce number = number := Quantity.reduce_natCast below
  have wholeOther : Width.bits64.reduce another = another := Quantity.reduce_natCast anotherBelow
  exact ⟨Digest.eq_of_bytes digests, by rwa [whole, wholeOther] at congruent⟩

/-- A new name gets a number greater than those in use under its hash. -/
theorem Allotted.exists_number (allotted : database.Allotted hash records name key)
    (absent : database.find hash name = .ok none) :
    ∃ number, key = keyOf (hash name) number ∧
      (∀ stored < 2 ^ 64, database.Uses (keyOf (hash name) stored) → stored < number) ∧
      (database.Uses key ↔
        2 ^ 64 ≤ number ∧ database.Uses (keyOf (hash name) (number - 2 ^ 64))) := by
  cases allotted with
  | stored there => cases absent.symm.trans there
  | new _ next =>
      refine ⟨_, rfl, fun stored below used => ?_, uses_keyOf_iff next (Nat.le_add_right _ _)⟩
      exact Nat.lt_of_lt_of_le (lt_of_uses next below used) (Nat.le_add_right _ _)

/-- While there is room, the key of a new name is not in use. -/
theorem Allotted.not_uses (allotted : database.Allotted hash records name key)
    (room : database.RoomFor hash records) (absent : database.find hash name = .ok none) :
    ¬database.Uses key := by
  cases allotted with
  | stored there => cases absent.symm.trans there
  | @new first new next =>
      obtain ⟨⟨record, member, rfl⟩, _⟩ := mem_newNames.mp new
      have enough := room record member first next
      have place := List.idxOf_lt_length_of_mem new
      intro used
      have beyond := ((uses_keyOf_iff next (Nat.le_add_right _ _)).mp used).1
      omega

theorem uses_of_find {found : Found} (there : database.find hash name = .ok (some found)) :
    database.Uses found.key := by
  obtain ⟨value, member, _⟩ := exists_pair_of_find there
  exact ⟨_, member, rfl⟩

/-- Different names that are stored have different keys. -/
theorem eq_of_find {found otherFound : Found} (there : database.find hash name = .ok (some found))
    (otherThere : database.find hash other = .ok (some otherFound))
    (same : found.key = otherFound.key) : name = other := by
  obtain ⟨value, member, holds⟩ := exists_pair_of_find there
  obtain ⟨otherValue, otherMember, otherHolds⟩ := exists_pair_of_find otherThere
  have values : value = otherValue :=
    congrArg Prod.snd (database.sorted.eq_of_key member otherMember same)
  rw [values, otherHolds] at holds
  exact congrArg Record.name (Except.ok.inj holds).symm

/-- **While there is room, different names have different keys.** -/
theorem Allotted.ne (allotted : database.Allotted hash records name key)
    (otherAllotted : database.Allotted hash records other otherKey)
    (room : database.RoomFor hash records) (different : name ≠ other) : key ≠ otherKey := by
  intro same
  rcases (allotted_iff ..).mp allotted with ⟨found, there, rfl⟩ | ⟨first, new, next, rfl⟩
  · rcases (allotted_iff ..).mp otherAllotted with ⟨otherFound, otherThere, rfl⟩ | ⟨_, otherNew, _, _⟩
    · exact different (eq_of_find there otherThere same)
    · exact otherAllotted.not_uses room (mem_newNames.mp otherNew).2.2
        (same ▸ uses_of_find there)
  · rcases (allotted_iff ..).mp otherAllotted with
      ⟨otherFound, otherThere, rfl⟩ | ⟨otherFirst, otherNew, otherNext, rfl⟩
    · exact allotted.not_uses room (mem_newNames.mp new).2.2
        (same ▸ uses_of_find otherThere)
    · -- under one hash the names stand at different places
      obtain ⟨⟨record, member, rfl⟩, _⟩ := mem_newNames.mp new
      obtain ⟨⟨otherRecord, otherMember, rfl⟩, _⟩ := mem_newNames.mp otherNew
      have enough := room record member first next
      have otherEnough := room otherRecord otherMember otherFirst otherNext
      have place := List.idxOf_lt_length_of_mem new
      have otherPlace := List.idxOf_lt_length_of_mem otherNew
      obtain ⟨digests, numbers⟩ := keyOf_inj (by omega) (by omega) same
      rw [digests] at new next numbers
      cases next.symm.trans otherNext
      exact different ((List.idxOf_inj new).mp (Nat.add_left_cancel numbers))

/-- What is written stands under the key that is allotted to some record. -/
theorem exists_allotted_of_written {some : List Record} {pairs : List Pair}
    (written : List.Forall₂ (fun record pair =>
      database.Allotted hash records record.name pair.1 ∧ pair.2 = record.encode) some pairs) :
    ∀ pair ∈ pairs, ∃ record ∈ some, database.Allotted hash records record.name pair.1 := by
  induction written with
  | nil => exact List.forall_mem_nil _
  | cons here _ ih =>
      refine List.forall_mem_cons.mpr ⟨⟨_, List.mem_cons_self, here.1⟩, fun pair member => ?_⟩
      obtain ⟨record, inside, allotted⟩ := ih pair member
      exact ⟨record, List.mem_cons_of_mem _ inside, allotted⟩

/-- **While there is room, a pair stays where it is** unless it is that of a name of the batch. -/
theorem mem_insertAll_of_written {pairs : List Pair}
    (written : List.Forall₂ (fun record pair =>
      database.Allotted hash records record.name pair.1 ∧ pair.2 = record.encode) records pairs)
    (room : database.RoomFor hash records) {pair : Pair} (member : pair ∈ database.pairs)
    (others : ∀ record ∈ records, ∀ found, database.find hash record.name = .ok (some found) →
      found.key ≠ pair.1) :
    pair ∈ (database.insertAll pairs).pairs := by
  refine (mem_insertAll_of_forall_ne pairs fun replaced inside same => ?_).mpr member
  obtain ⟨record, inBatch, allotted⟩ := exists_allotted_of_written written replaced inside
  rcases (allotted_iff ..).mp allotted with ⟨found, there, key⟩ | ⟨_, new, _, _⟩
  · exact others record inBatch found there (key.symm.trans same.symm)
  · exact allotted.not_uses room (mem_newNames.mp new).2.2 ⟨pair, member, same⟩

end Database

end Septet
