import Mathlib.Data.List.Sort
import Septet.Proofs.Database.OneByOne

/-!
# Hashes keep their pairs apart

What is looked up for a name, and what is written or erased for it, has a key that
begins with the hash of the name (`Covers`).  Two databases may therefore differ
wherever they like under other hashes, and may hold keys that are no key of a record
at all: as long as they are alike under the hashes of some names
(`Database.AlikeUnder`), these names are found alike (`find_of_alikeUnder`), batches of
their records are put together alike (`addAll_of_alikeUnder`), and what is written is
written under these hashes only (`Batch.Within.addAll`).

Whether a pair is in a database after a write or an erasure depends on whether that
pair was in it before, and on no other pair (`mem_insertAll_congr`, `mem_erase`).
-/

set_option autoImplicit false

namespace Septet

/-- A key begins with one of some digests. -/
def Covers (digests : List Digest) (key : Bytes) : Prop :=
  ∃ digest ∈ digests, digest.bytes <+: key

namespace Database

/-- Two databases have the same pairs under some digests. -/
def AlikeUnder (digests : List Digest) (first second : Database) : Prop :=
  ∀ pair : Pair, Covers digests pair.1 → (pair ∈ first.pairs ↔ pair ∈ second.pairs)

variable {digests : List Digest} {first second : Database} {hash : NameHash} {name : String}

/-! ## Looking up -/

section Looking

variable (alike : AlikeUnder digests first second)
include alike

/-- Databases that are alike under a digest have the same view of it. -/
theorem under_of_alikeUnder {digest : Digest} (member : digest ∈ digests) :
    first.under digest.bytes = second.under digest.bytes := by
  have antisymm : Std.Antisymm fun earlier later : Pair => earlier.1 < later.1 :=
    ⟨fun _ _ before after => absurd (List.lt_trans before after) (List.lt_irrefl _)⟩
  have irrefl : Std.Irrefl fun earlier later : Pair => earlier.1 < later.1 :=
    ⟨fun pair => List.lt_irrefl pair.1⟩
  refine List.Pairwise.eq_of_mem_iff (first.sorted_under _) (second.sorted_under _) fun pair => ?_
  rw [mem_under, mem_under]
  exact alike _ ⟨digest, member, List.prefix_append _ _⟩

theorem find_of_alikeUnder (member : hash name ∈ digests) :
    first.find hash name = second.find hash name :=
  find_congr (under_of_alikeUnder alike member)

theorem nextNumber_of_alikeUnder {digest : Digest} (member : digest ∈ digests) :
    first.nextNumber digest = second.nextNumber digest := by
  rw [nextNumber, nextNumber, under_of_alikeUnder alike member]

/-- The key for a name is chosen alike in databases that are alike under its hash. -/
theorem keyFor_of_alikeUnder (member : hash name ∈ digests) (batch : Batch) :
    batch.keyFor first hash name = batch.keyFor second hash name := by
  simp only [Batch.keyFor, Batch.newKey, find_of_alikeUnder alike member,
    nextNumber_of_alikeUnder alike member]

/-- **Batches of records are put together alike** in databases that are alike under the hashes of
the records. -/
theorem addAll_of_alikeUnder (records : List Record) :
    (∀ record ∈ records, hash record.name ∈ digests) → ∀ batch : Batch,
      batch.addAll first hash records = batch.addAll second hash records := by
  induction records with
  | nil =>
      intro _ batch
      rfl
  | cons record rest ih =>
      intro members batch
      obtain ⟨here, later⟩ := List.forall_mem_cons.mp members
      simp only [Batch.addAll, Batch.add, keyFor_of_alikeUnder alike here]
      cases batch.keyFor second hash record.name with
      | error cause => rfl
      | ok result => exact ih later _

end Looking

/-- The record of a name is kept under the hash of the name. -/
theorem covers_of_find {found : Found} (there : first.find hash name = .ok (some found))
    (member : hash name ∈ digests) : Covers digests found.key := by
  obtain ⟨rest, key, _⟩ := find_eq_some_iff.mp there
  exact ⟨hash name, member, key ▸ List.prefix_append _ _⟩

end Database

/-! ## Where a batch writes -/

namespace Batch

/-- All keys of a batch, those that it writes to and those that it remembers, begin with one of some
digests. -/
structure Within (batch : Batch) (digests : List Digest) : Prop where
  written : ∀ pair ∈ batch.pairs, Covers digests pair.1
  remembered : ∀ name key, batch.keys.lookup name = some key → Covers digests key

theorem within_empty (digests : List Digest) : Within {} digests where
  written := List.forall_mem_nil _
  remembered := by
    intro name key found
    cases found

variable {digests : List Digest} {database : Database} {hash : NameHash} {batch : Batch}

/-- A key is chosen under the hash of its name. -/
theorem Within.covers_of_keyFor (within : batch.Within digests) {name : String} {key : Bytes}
    {chosen : Batch} (choice : batch.keyFor database hash name = .ok (key, chosen))
    (member : hash name ∈ digests) : Covers digests key := by
  rcases keyFor_cases choice with ⟨known, _⟩ | ⟨_, ⟨found, there, rfl⟩, _⟩ | ⟨_, _, _, _, rfl, _⟩
  · exact within.remembered name key known
  · exact Database.covers_of_find there member
  · exact ⟨hash name, member, List.prefix_append _ _⟩

/-- **A batch of records writes under the hashes of its records only.** -/
theorem Within.addAll (records : List Record) : ∀ {batch collected : Batch},
    batch.Within digests → (∀ record ∈ records, hash record.name ∈ digests) →
      batch.addAll database hash records = .ok collected → collected.Within digests := by
  induction records with
  | nil =>
      intro batch collected within _ same
      cases same
      exact within
  | cons record rest ih =>
      intro batch collected within members added
      obtain ⟨here, later⟩ := List.forall_mem_cons.mp members
      rw [Batch.addAll, Batch.add] at added
      cases choice : batch.keyFor database hash record.name with
      | error cause =>
          rw [choice] at added
          cases added
      | ok result =>
          obtain ⟨key, chosen⟩ := result
          rw [choice] at added
          have covered := within.covers_of_keyFor choice here
          obtain ⟨pairs, keys, _⟩ := kept_of_keyFor choice
          refine ih ⟨?_, ?_⟩ later added
          · intro pair member
            rcases List.mem_append.mp member with old | new
            · exact within.written pair (pairs ▸ old)
            · rw [List.mem_singleton.mp new]
              exact covered
          · intro name other found
            rw [List.lookup_cons, keys] at found
            split at found
            · cases found
              exact covered
            · exact within.remembered name other found

end Batch

namespace Database

/-! ## Single pairs under writing -/

/-- A pair that is at no key that is written to stays where it is, or is not there afterwards
either. -/
theorem mem_insertAll_of_forall_ne {pair : Pair} (pairs : List Pair) : ∀ {database : Database},
    (∀ written ∈ pairs, pair.1 ≠ written.1) →
      (pair ∈ (database.insertAll pairs).pairs ↔ pair ∈ database.pairs) := by
  induction pairs with
  | nil =>
      intro database _
      rfl
  | cons written rest ih =>
      intro database apart
      obtain ⟨here, later⟩ := List.forall_mem_cons.mp apart
      rw [insertAll, List.foldl_cons, ← insertAll, ih later]
      refine (mem_insertPair database.sorted).trans ⟨?_, fun member => .inr ⟨member, here⟩⟩
      rintro (same | ⟨member, _⟩)
      · exact absurd (congrArg Prod.fst same) here
      · exact member

/-- Databases that have a pair in common or neither have it do so after writing. -/
theorem mem_insertAll_congr {pair : Pair} (pairs : List Pair) : ∀ {first second : Database},
    (pair ∈ first.pairs ↔ pair ∈ second.pairs) →
      (pair ∈ (first.insertAll pairs).pairs ↔ pair ∈ (second.insertAll pairs).pairs) := by
  induction pairs with
  | nil => exact id
  | cons written rest ih =>
      intro first second alike
      refine ih (((mem_insertPair first.sorted).trans ?_).trans (mem_insertPair second.sorted).symm)
      rw [alike]

theorem mem_erase {database : Database} {key : Bytes} {pair : Pair} :
    pair ∈ (database.erase key).pairs ↔ pair ∈ database.pairs ∧ pair.1 ≠ key := by
  rw [erase, List.mem_filter, decide_eq_true_eq]

end Database

end Septet
