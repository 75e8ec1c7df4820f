import Septet.Proofs.Database.Isolation
import Septet.Proofs.Store.Service

/-!
# Calls keep to the hashes of their names

A call is about some names, and these have hashes (`Call.digests`).  What an open store
answers to it, errors included, is decided by the pairs under these hashes alone, and
these are the only pairs that it changes (`perform_isolated`).  So a pair that cannot
be read makes trouble for the names of its own hash and for no other; only listing
goes through all pairs.
-/

set_option autoImplicit false

namespace Septet

/-- The hashes of the names that a call is about; a listing is about none of them. -/
def Call.digests (hash : NameHash) : Call → List Digest
  | .get name => [hash name]
  | .put record => [hash record.name]
  | .putMany records => records.map fun record => hash record.name
  | .delete name => [hash name]
  | .names => []

namespace Database

variable {first second : Database} {hash : NameHash} (limit : Number)

/-! ## Batches -/

/-- A batch is taken or refused alike in databases that are alike under the hashes of its records,
and leaves them alike. -/
theorem putMany_of_alikeUnder {digests : List Digest} (alike : AlikeUnder digests first second)
    {records : List Record} (members : ∀ record ∈ records, hash record.name ∈ digests) :
    (∃ cause, first.putMany hash limit records = .error cause ∧
        second.putMany hash limit records = .error cause) ∨
      ∃ firstAfter secondAfter, first.putMany hash limit records = .ok firstAfter ∧
        second.putMany hash limit records = .ok secondAfter ∧
          AlikeUnder digests firstAfter secondAfter := by
  unfold putMany
  split
  · exact .inl ⟨_, rfl, rfl⟩
  · rw [addAll_of_alikeUnder alike records members]
    cases Batch.addAll {} second hash records with
    | error cause => exact .inl ⟨cause, rfl, rfl⟩
    | ok batch =>
        exact .inr ⟨_, _, rfl, rfl, fun pair covered =>
          mem_insertAll_congr batch.pairs (alike pair covered)⟩

/-- A batch leaves the pairs under other hashes, and those at keys that are too short, as they
were. -/
theorem mem_putMany_of_not_covers {records : List Record} {after : Database}
    (taken : first.putMany hash limit records = .ok after) {pair : Pair}
    (apart : ¬Covers (records.map fun record => hash record.name) pair.1) :
    pair ∈ after.pairs ↔ pair ∈ first.pairs := by
  unfold putMany at taken
  split at taken
  · cases taken
  · cases added : Batch.addAll {} first hash records with
    | error cause =>
        rw [added] at taken
        cases taken
    | ok batch =>
        rw [added] at taken
        cases taken
        have within := (Batch.within_empty (records.map fun record => hash record.name)).addAll
          records (fun record member => List.mem_map_of_mem member) added
        exact mem_insertAll_of_forall_ne batch.pairs fun written member same =>
          apart (same ▸ within.written written member)

/-- A further pair makes no difference under the digests that its key does not begin with. -/
theorem alikeUnder_insert {digests : List Digest} {key value : Bytes}
    (apart : ¬Covers digests key) : AlikeUnder digests first (first.insert key value) := by
  intro pair covered
  refine ⟨fun member => (mem_insertPair first.sorted).mpr (.inr ⟨member, ?_⟩), fun member => ?_⟩
  · rintro rfl
    exact apart covered
  · rcases (mem_insertPair first.sorted).mp member with rfl | ⟨old, _⟩
    · exact absurd covered apart
    · exact old

/-! ## Calls -/

/-- A call that is about names is answered alike by databases that are alike under their hashes,
and leaves them alike. -/
theorem serve_of_alikeUnder {call : Call} (named : call ≠ .names)
    (alike : AlikeUnder (call.digests hash) first second) :
    (first.serve hash limit call).map Prod.fst = (second.serve hash limit call).map Prod.fst ∧
      AlikeUnder (call.digests hash) (first.afterCall hash limit call)
        (second.afterCall hash limit call) := by
  have batch : ∀ records : List Record,
      AlikeUnder ((Call.putMany records).digests hash) first second →
        (first.serve hash limit (.putMany records)).map Prod.fst =
            (second.serve hash limit (.putMany records)).map Prod.fst ∧
          AlikeUnder ((Call.putMany records).digests hash)
            (first.afterCall hash limit (.putMany records))
            (second.afterCall hash limit (.putMany records)) := by
    intro records alike
    have members : ∀ record ∈ records, hash record.name ∈ (Call.putMany records).digests hash :=
      fun record member => List.mem_map_of_mem member
    rcases putMany_of_alikeUnder limit alike members with
      ⟨cause, refused, refusedToo⟩ | ⟨firstAfter, secondAfter, taken, takenToo, alikeAfter⟩
    · rw [afterCall, afterCall, serve, serve, refused, refusedToo]
      exact ⟨rfl, alike⟩
    · rw [afterCall, afterCall, serve, serve, taken, takenToo]
      exact ⟨rfl, alikeAfter⟩
  cases call with
  | get name =>
      have found := find_of_alikeUnder alike (List.mem_singleton_self (hash name))
      simp only [afterCall, serve, found]
      cases second.find hash name with
      | error cause => exact ⟨rfl, alike⟩
      | ok result => exact ⟨rfl, alike⟩
  | put record => exact batch [record] alike
  | putMany records => exact batch records alike
  | delete name =>
      have found := find_of_alikeUnder alike (List.mem_singleton_self (hash name))
      simp only [afterCall, serve, delete, found]
      cases second.find hash name with
      | error cause => exact ⟨rfl, alike⟩
      | ok result =>
          cases result with
          | none => exact ⟨rfl, alike⟩
          | some there =>
              refine ⟨rfl, fun pair covered => ?_⟩
              exact (mem_erase.trans (and_congr_left' (alike pair covered))).trans mem_erase.symm
  | names => exact absurd rfl named

/-- A call leaves the pairs under other hashes, and those at keys that are too short, as they
were. -/
theorem mem_afterCall_of_not_covers {call : Call} {pair : Pair}
    (apart : ¬Covers (call.digests hash) pair.1) :
    pair ∈ (first.afterCall hash limit call).pairs ↔ pair ∈ first.pairs := by
  have batch : ∀ records : List Record, ¬Covers ((Call.putMany records).digests hash) pair.1 →
      (pair ∈ (first.afterCall hash limit (.putMany records)).pairs ↔ pair ∈ first.pairs) := by
    intro records apart
    cases taken : first.putMany hash limit records with
    | error cause =>
        rw [afterCall, serve, taken]
        exact Iff.rfl
    | ok after =>
        rw [afterCall, serve, taken]
        exact mem_putMany_of_not_covers limit taken apart
  cases call with
  | get name =>
      rw [afterCall, serve]
      cases first.find hash name with
      | error cause => exact Iff.rfl
      | ok result => exact Iff.rfl
  | put record => exact batch [record] apart
  | putMany records => exact batch records apart
  | delete name =>
      rw [afterCall, serve, delete]
      cases found : first.find hash name with
      | error cause => exact Iff.rfl
      | ok result =>
          cases result with
          | none => exact Iff.rfl
          | some there =>
              have covered := covers_of_find found (List.mem_singleton_self (hash name))
              refine mem_erase.trans ⟨And.left, fun member => ⟨member, fun same => ?_⟩⟩
              exact apart (same ▸ covered)
  | names =>
      rw [afterCall, serve]
      cases first.list .name with
      | mk shown failure => cases failure <;> exact Iff.rfl

end Database

/-! ## Stores -/

/-- **A call keeps to the hashes of its names.**  Whatever two open stores with the same limit on
batches hold, if they hold the same pairs under these hashes, then they give the same answer or fail
alike, and hold the same pairs under these hashes afterwards; and every pair at any other key, be
it too short for a hash, stays as it was. -/
theorem perform_isolated {first second : Session} {opening other : Opening} {hash : NameHash}
    {call : Call} (ready : first.Ready opening) (readyToo : second.Ready other)
    (limits : first.store.options.maxBatchSize = second.store.options.maxBatchSize)
    (named : call ≠ .names)
    (alike : (first.database opening).AlikeUnder (call.digests hash) (second.database other)) :
    (call.perform hash).outcome first = (call.perform hash).outcome second ∧
      (((call.perform hash).left first).database opening).AlikeUnder (call.digests hash)
          (((call.perform hash).left second).database other) ∧
        ∀ pair : Pair, ¬Covers (call.digests hash) pair.1 →
          (pair ∈ (((call.perform hash).left first).database opening).pairs ↔
            pair ∈ (first.database opening).pairs) := by
  obtain ⟨answers, _, leaves, _⟩ := Call.perform_run ready hash call
  obtain ⟨answersToo, _, leavesToo, _⟩ := Call.perform_run readyToo hash call
  obtain ⟨same, alikeAfter⟩ := Database.serve_of_alikeUnder
    first.store.options.maxBatchSize named alike
  rw [answers, answersToo, leaves, leavesToo, ← limits]
  exact ⟨same, alikeAfter, fun pair apart => Database.mem_afterCall_of_not_covers _ apart⟩

/-- A digest that differs from that of zeros in every byte. -/
def Digest.ones : Digest where
  bytes := List.replicate 16 255
  length_bytes := List.length_replicate

/-- A hash that only one name does not share with all others. -/
def hashApart : NameHash := fun name => if name = "a" then .zeros else .ones

/-- A value that holds no record under the hash of one name. -/
def Database.scarred : Database :=
  Database.empty.insert (keyOf .zeros 0) [5]

theorem perform_isolated_scarred :
    let worse := (Database.scarred.insert [0] [7]).insert (Database.keyOf .ones 3) [5]
    ((Call.put ⟨"a", [[1]]⟩).perform hashApart).outcome (Session.holding worse) =
        ((Call.put ⟨"a", [[1]]⟩).perform hashApart).outcome (Session.holding Database.scarred) ∧
      ([0], [7]) ∈ ((((Call.put ⟨"a", [[1]]⟩).perform hashApart).left
        (Session.holding worse)).database ⟨0, []⟩).pairs := by
  intro worse
  have short : ¬Covers [hashApart "a"] [0] := by
    rintro ⟨digest, member, starts⟩
    cases List.mem_singleton.mp member
    exact absurd starts (by decide)
  have elsewhere : ¬Covers [hashApart "a"] (Database.keyOf .ones 3) := by
    rintro ⟨digest, member, starts⟩
    cases List.mem_singleton.mp member
    exact absurd starts (by decide +kernel)
  have alike : worse.AlikeUnder ((Call.put ⟨"a", [[1]]⟩).digests hashApart) Database.scarred :=
    fun pair covered => (Database.alikeUnder_insert elsewhere pair covered).symm.trans
      (Database.alikeUnder_insert short pair covered).symm
  have isolated := perform_isolated (Session.ready_holding worse)
    (Session.ready_holding Database.scarred) rfl (by simp) alike
  exact ⟨isolated.1, (isolated.2.2 ([0], [7]) short).mpr (by decide +kernel)⟩

end Septet
