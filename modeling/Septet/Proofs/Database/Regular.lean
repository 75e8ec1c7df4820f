import Septet.Database.Listing
import Septet.Proofs.Database.OneByOne

/-!
# Databases that have only been written to by a store

A database that began without pairs is regular, however many of its names have the
same hash: every pair holds a record that fits, under the hash of its name and a
number below a bound, and no name has two pairs (`Database.Regular`).  A write takes
the bound up by one (`Regular.insert`) and an erasure leaves it as it is
(`Regular.erase`), also when it takes the greatest number of a hash away.

In a regular database every name can be looked up (`Regular.exists_find`) and a name
is found exactly when a pair holds a record of it (`Regular.find_eq_none_iff`), the
numbers leave room up to the bound (`Regular.hasRoom`), and the listing shows every
name once (`Regular.names`).
-/

set_option autoImplicit false

namespace Septet.Database

/-- Every pair is as a store writes it, with a number below the bound, and no name has two. -/
structure Regular (database : Database) (hash : NameHash) (bound : Nat) : Prop where
  /-- A pair holds a record that fits under the hash of its name and a number. -/
  shaped : ∀ pair ∈ database.pairs, ∃ (record : Record) (number : Nat),
    record.Fits ∧ number < bound ∧ pair = (keyOf (hash record.name) number, record.encode)
  /-- A name has one pair. -/
  once : ∀ first ∈ database.pairs, ∀ second ∈ database.pairs,
    ∀ record other, Record.decode first.2 = .ok record → Record.decode second.2 = .ok other →
      record.name = other.name → first = second

theorem regular_of_pairs_eq_nil {database : Database} (none : database.pairs = [])
    (hash : NameHash) : database.Regular hash 0 where
  shaped := by simp [none]
  once := by simp [none]

namespace Regular

variable {database : Database} {hash : NameHash} {bound : Nat}
  (regular : database.Regular hash bound)
include regular

/-! ## Looking names up -/

/-- A pair holds a record, and it stands under the hash of its name. -/
theorem exists_record {pair : Pair} (member : pair ∈ database.pairs) :
    ∃ (record : Record) (number : Nat), record.Fits ∧ number < bound ∧
      pair = (keyOf (hash record.name) number, record.encode) ∧
        Record.decode pair.2 = .ok record := by
  obtain ⟨record, number, fits, below, rfl⟩ := regular.shaped pair member
  exact ⟨record, number, fits, below, rfl, Record.decode_encode fits⟩

theorem exists_find (name : String) : ∃ result, database.find hash name = .ok result := by
  cases searched : database.find hash name with
  | ok result => exact ⟨result, rfl⟩
  | error cause =>
      obtain ⟨before, key, value, after, split, broken, _⟩ :=
        firstNamed_eq_error_iff.mp (find_eq_error_iff.mp searched)
      have member : (key, value) ∈ database.under (hash name).bytes :=
        split ▸ List.mem_append_right _ List.mem_cons_self
      obtain ⟨record, _, _, _, _, holds⟩ := regular.exists_record ((mem_under _ _).mp member)
      cases broken.symm.trans holds

/-- A name is not found when no pair at all holds a record of it. -/
theorem find_eq_none_iff {name : String} :
    database.find hash name = .ok none ↔
      ∀ pair ∈ database.pairs, ∀ record, Record.decode pair.2 = .ok record →
        record.name ≠ name := by
  rw [Database.find_eq_none_iff]
  constructor
  · intro passed pair member record holds same
    obtain ⟨stored, number, _, _, rfl, stores⟩ := regular.exists_record member
    cases stores.symm.trans holds
    have inside : (Quantity.encode .bits64 number, record.encode) ∈
        database.under (hash name).bytes := (mem_under _ _).mpr (same ▸ member)
    obtain ⟨other, holdsOther, different⟩ := passed _ inside
    cases holdsOther.symm.trans holds
    exact different same
  · intro others pair inside
    obtain ⟨record, _, _, _, _, holds⟩ := regular.exists_record ((mem_under _ _).mp inside)
    exact ⟨record, holds, others _ ((mem_under _ _).mp inside) record holds⟩

theorem key_of_find {name : String} {found : Found}
    (there : database.find hash name = .ok (some found)) {pair : Pair}
    (member : pair ∈ database.pairs) {record : Record}
    (holds : Record.decode pair.2 = .ok record) (same : record.name = name) :
    pair.1 = found.key := by
  obtain ⟨value, foundMember, foundHolds⟩ := exists_pair_of_find there
  exact congrArg Prod.fst (regular.once _ member _ foundMember _ _ holds foundHolds same)

/-! ## Numbers -/

theorem number_of_mem_under {digest : Digest} {pair : Pair}
    (inside : pair ∈ database.under digest.bytes) :
    ∃ number, number < bound ∧ pair.1 = Quantity.encode .bits64 number := by
  obtain ⟨record, number, _, below, shape⟩ := regular.shaped _ ((mem_under _ _).mp inside)
  have key : digest.bytes ++ pair.1 = (hash record.name).bytes ++ Quantity.encode .bits64 number :=
    congrArg Prod.fst shape
  exact ⟨number, below, List.append_inj_right key
    (digest.length_bytes.trans (hash record.name).length_bytes.symm)⟩

/-- There is a next number under every digest, and it is not above the bound. -/
theorem exists_nextNumber (small : bound ≤ 2 ^ 64) (digest : Digest) :
    ∃ number, database.nextNumber digest = .ok number ∧ number ≤ bound := by
  have numbers : ∀ pair ∈ database.under digest.bytes, ∃ decoded,
      Quantity.decode .bits64 pair.1 0 = .ok decoded ∧ decoded.value < bound := by
    intro pair inside
    obtain ⟨number, below, key⟩ := regular.number_of_mem_under inside
    exact ⟨_, key ▸ decode_encode_number (Nat.lt_of_lt_of_le below small), below⟩
  obtain ⟨number, next, _, _, attained⟩ := numberAfter_of_numbered
    (fun pair inside => (numbers pair inside).imp fun _ => And.left) 0
  refine ⟨number, next, ?_⟩
  rcases attained with rfl | ⟨pair, inside, decoded, found, rfl⟩
  · exact Nat.zero_le bound
  · obtain ⟨actual, same, below⟩ := numbers pair inside
    cases found.symm.trans same
    exact below

theorem hasRoom {count : Nat} (enough : bound + count ≤ 2 ^ 64) (digest : Digest) :
    database.HasRoom digest count := by
  intro number next
  obtain ⟨actual, result, below⟩ := regular.exists_nextNumber (by omega) digest
  cases next.symm.trans result
  omega

/-! ## Writing -/

theorem exists_keyFor (small : bound ≤ 2 ^ 64) (name : String) :
    ∃ key, database.keyFor hash name = .ok key := by
  obtain ⟨result, searched⟩ := regular.exists_find name
  cases result with
  | some found => exact ⟨found.key, keyFor_eq_ok_iff.mpr (.inl ⟨found, searched, rfl⟩)⟩
  | none =>
      obtain ⟨number, next, _⟩ := regular.exists_nextNumber small (hash name)
      exact ⟨_, keyFor_eq_ok_iff.mpr (.inr ⟨searched, number, next, rfl⟩)⟩

section Writing

variable {name : String} {key : Bytes} (chosen : database.keyFor hash name = .ok key)
include chosen

/-- A name is written under its hash and a number that is not above the bound. -/
theorem number_of_keyFor (small : bound ≤ 2 ^ 64) :
    ∃ number, number ≤ bound ∧ key = keyOf (hash name) number := by
  rcases keyFor_eq_ok_iff.mp chosen with ⟨found, there, rfl⟩ | ⟨_, number, next, rfl⟩
  · obtain ⟨value, member, holds⟩ := exists_pair_of_find there
    obtain ⟨record, number, _, below, shape, stores⟩ := regular.exists_record member
    cases stores.symm.trans holds
    exact ⟨number, Nat.le_of_lt below, congrArg Prod.fst shape⟩
  · obtain ⟨actual, same, bounded⟩ := regular.exists_nextNumber small (hash name)
    cases next.symm.trans same
    exact ⟨number, bounded, rfl⟩

/-- Only the pair that a write replaces may hold a record of the name that is written. -/
theorem ne_of_keyFor {pair : Pair} (member : pair ∈ database.pairs) (apart : pair.1 ≠ key)
    {record : Record} (holds : Record.decode pair.2 = .ok record) : record.name ≠ name := by
  rcases keyFor_eq_ok_iff.mp chosen with ⟨found, there, rfl⟩ | ⟨absent, _⟩
  · exact fun same => apart (regular.key_of_find there member holds same)
  · exact regular.find_eq_none_iff.mp absent pair member record holds

end Writing

/-- **A write keeps a database regular**, with a number more below the bound. -/
theorem insert {record : Record} {key : Bytes}
    (chosen : database.keyFor hash record.name = .ok key) (fits : record.Fits)
    (small : bound ≤ 2 ^ 64) :
    (database.insert key record.encode).Regular hash (bound + 1) := by
  have written := Record.decode_encode fits
  constructor
  · intro pair member
    rcases (mem_insertPair database.sorted).mp member with rfl | ⟨old, _⟩
    · obtain ⟨number, bounded, rfl⟩ := regular.number_of_keyFor chosen small
      exact ⟨record, number, fits, Nat.lt_succ_of_le bounded, rfl⟩
    · obtain ⟨stored, number, fitting, below, shape⟩ := regular.shaped pair old
      exact ⟨stored, number, fitting, Nat.lt_succ_of_lt below, shape⟩
  · intro first firstMember second secondMember held other holds holdsOther same
    rcases (mem_insertPair database.sorted).mp firstMember with rfl | ⟨firstOld, firstApart⟩
    · cases written.symm.trans holds
      rcases (mem_insertPair database.sorted).mp secondMember with rfl | ⟨secondOld, secondApart⟩
      · rfl
      · exact absurd same.symm (regular.ne_of_keyFor chosen secondOld secondApart holdsOther)
    · rcases (mem_insertPair database.sorted).mp secondMember with rfl | ⟨secondOld, _⟩
      · cases written.symm.trans holdsOther
        exact absurd same (regular.ne_of_keyFor chosen firstOld firstApart holds)
      · exact regular.once first firstOld second secondOld held other holds holdsOther same

end Regular

/-- A regular database takes records one by one while there are numbers for them. -/
theorem Regular.exists_writeEach {hash : NameHash} (records : List Record) :
    ∀ {database : Database} {bound : Nat}, database.Regular hash bound →
      bound + records.length ≤ 2 ^ 64 → (∀ record ∈ records, record.Fits) →
        ∃ written, database.writeEach hash records = .ok written ∧
          written.Regular hash (bound + records.length) := by
  induction records with
  | nil =>
      intro database bound regular _ _
      exact ⟨database, rfl, regular⟩
  | cons record rest ih =>
      intro database bound regular enough fits
      rw [List.length_cons] at enough
      obtain ⟨key, chosen⟩ := regular.exists_keyFor (by omega) record.name
      have then_regular := regular.insert chosen (fits record List.mem_cons_self) (by omega)
      obtain ⟨written, others, last⟩ := ih then_regular (by omega)
        fun other member => fits other (List.mem_cons_of_mem _ member)
      refine ⟨written, ?_, ?_⟩
      · simpa only [writeEach, write, chosen, Except.map, bind, Except.bind] using others
      · rw [List.length_cons, Nat.add_comm rest.length 1, ← Nat.add_assoc]
        exact last

/-! ## Erasing -/

namespace Regular

variable {database : Database} {hash : NameHash} {bound : Nat}
  (regular : database.Regular hash bound)
include regular

/-- **An erasure keeps a database regular.** -/
theorem erase (key : Bytes) : (database.erase key).Regular hash bound where
  shaped := fun pair member => regular.shaped pair (List.mem_of_mem_filter member)
  once := fun first firstMember second secondMember =>
    regular.once first (List.mem_of_mem_filter firstMember) second
      (List.mem_of_mem_filter secondMember)

theorem find_erase_self {name : String} {found : Found}
    (there : database.find hash name = .ok (some found)) :
    (database.erase found.key).find hash name = .ok none := by
  refine (regular.erase found.key).find_eq_none_iff.mpr fun pair member record holds same => ?_
  obtain ⟨old, apart⟩ := List.mem_filter.mp member
  exact of_decide_eq_true apart (regular.key_of_find there old holds same)

end Regular

/-! ## Listing -/

/-- Pairs that hold records of different names are listed by these names. -/
theorem ofPairs_name {pairs : List Pair}
    (readable : ∀ pair ∈ pairs, ∃ record, Record.decode pair.2 = .ok record)
    (apart : pairs.Pairwise fun first second => ∀ record other,
      Record.decode first.2 = .ok record → Record.decode second.2 = .ok other →
        record.name ≠ other.name) :
    ∃ shown, Listing.ofPairs .name pairs = ⟨shown, none⟩ ∧ shown.Nodup ∧
      ∀ name, name ∈ shown ↔
        ∃ pair ∈ pairs, ∃ record, Record.decode pair.2 = .ok record ∧ record.name = name := by
  induction pairs with
  | nil => exact ⟨[], rfl, List.nodup_nil, fun name => by simp⟩
  | cons head rest ih =>
      obtain ⟨⟨record, holds⟩, others⟩ := List.forall_mem_cons.mp readable
      obtain ⟨different, distinct⟩ := List.pairwise_cons.mp apart
      obtain ⟨shown, listed, once, exactly⟩ := ih others distinct
      refine ⟨record.name :: shown, ?_, ?_, ?_⟩
      · simp only [Listing.ofPairs, Aspect.show?, holds, bind, Except.bind, listed]
      · refine List.nodup_cons.mpr ⟨fun again => ?_, once⟩
        obtain ⟨pair, member, other, holdsOther, same⟩ := (exactly record.name).mp again
        exact different pair member record other holds holdsOther same.symm
      · intro name
        have here : (∃ own, Record.decode head.2 = .ok own ∧ own.name = name) ↔
            name = record.name := by
          simp only [holds, Except.ok.injEq, exists_eq_left', eq_comm]
        rw [List.mem_cons, exactly, List.exists_mem_cons_iff, here]

/-- **A regular database lists every name that is found, once, and no other.** -/
theorem Regular.names {database : Database} {hash : NameHash} {bound : Nat}
    (regular : database.Regular hash bound) :
    ∃ shown, database.list .name = ⟨shown, none⟩ ∧ shown.Nodup ∧
      ∀ name, name ∈ shown ↔ ∃ found, database.find hash name = .ok (some found) := by
  have apart : database.pairs.Pairwise fun first second => ∀ record other,
      Record.decode first.2 = .ok record → Record.decode second.2 = .ok other →
        record.name ≠ other.name := by
    refine database.sorted.imp_of_mem ?_
    intro first second firstMember secondMember before record other holds holdsOther same
    have equal := regular.once first firstMember second secondMember _ _ holds holdsOther same
    exact List.lt_irrefl _ (equal ▸ before)
  obtain ⟨shown, listed, once, exactly⟩ := ofPairs_name
    (fun pair member => by
      obtain ⟨record, _, _, _, _, holds⟩ := regular.exists_record member
      exact ⟨record, holds⟩) apart
  refine ⟨shown, listed, once, fun name => (exactly name).trans ?_⟩
  obtain ⟨result, searched⟩ := regular.exists_find name
  cases result with
  | some found =>
      obtain ⟨value, member, holds⟩ := exists_pair_of_find searched
      exact iff_of_true ⟨_, member, _, holds, rfl⟩ ⟨found, searched⟩
  | none =>
      refine iff_of_false ?_ ?_
      · rintro ⟨pair, member, record, holds, same⟩
        exact regular.find_eq_none_iff.mp searched pair member record holds same
      · rintro ⟨found, there⟩
        cases searched.symm.trans there

end Septet.Database
