import Septet.Proofs.Database.Regular

/-!
# The records of a regular database

The pairs of a regular database are those of records with numbers, in the order of
their keys, and every name among them is there once and has the fields that are found
for it (`Regular.exists_holds`).  A listing of such a database ends without an error
and shows these records and no other (`Regular.list_eq`).  The name of the first
record can be deleted, and the others are left (`Regular.delete_head`).
-/

set_option autoImplicit false

namespace Septet

/-- Where every pair can be shown, all are shown. -/
theorem Listing.ofPairs_map {α : Type} {aspect : Aspect} {pair : α → Pair} {text : α → String}
    {list : List α} (shown : ∀ a ∈ list, aspect.show? (pair a) = .ok (text a)) :
    ofPairs aspect (list.map pair) = ⟨list.map text, none⟩ := by
  induction list with
  | nil => rfl
  | cons first rest ih =>
      obtain ⟨here, others⟩ := List.forall_mem_cons.mp shown
      simp only [List.map_cons, ofPairs, here, ih others]

/-- A record with the number that it has under its hash. -/
structure Entry where
  number : Nat
  record : Record

namespace Entry

/-- The pair that a record is kept in. -/
def pair (hash : NameHash) (entry : Entry) : Pair :=
  (Database.keyOf (hash entry.record.name) entry.number, entry.record.encode)

/-- What a listing shows of a record. -/
def text (hash : NameHash) (entry : Entry) : Aspect → String
  | .name => entry.record.name
  | .line => Aspect.lineOf (entry.pair hash).1 entry.number entry.record

/-- The number behind a hash is read where a listing reads it. -/
theorem decode_key (digest : Digest) {number : Nat} (small : number < 2 ^ 64) :
    Quantity.decode .bits64 (Database.keyOf digest number) Aspect.hashLength =
      .ok ⟨number, (Quantity.encode .bits64 number).length⟩ := by
  have decoded := Quantity.decode_append .bits64 digest.bytes number []
  have whole : Width.bits64.reduce number = number := Quantity.reduce_natCast small
  rw [whole, List.append_nil, digest.length_bytes] at decoded
  exact decoded

theorem show?_pair {hash : NameHash} {entry : Entry} (fits : entry.record.Fits)
    (small : entry.number < 2 ^ 64) (aspect : Aspect) :
    aspect.show? (entry.pair hash) = .ok (entry.text hash aspect) := by
  have holds := Record.decode_encode fits
  cases aspect with
  | name => simp only [Aspect.show?, pair, holds, bind, Except.bind, text]
  | line =>
      simp only [Aspect.show?, pair, decode_key _ small, holds, bind, Except.bind, text]

theorem ofPairs_map_pair {hash : NameHash} (aspect : Aspect) (entries : List Entry)
    (shaped : ∀ entry ∈ entries, entry.record.Fits ∧ entry.number < 2 ^ 64) :
    Listing.ofPairs aspect (entries.map (pair hash)) =
      ⟨entries.map fun entry => entry.text hash aspect, none⟩ :=
  Listing.ofPairs_map fun entry member =>
    show?_pair (shaped entry member).1 (shaped entry member).2 aspect

end Entry

namespace Database

/-- The records of a database in the order of their keys. -/
structure Holds (database : Database) (hash : NameHash) (entries : List Entry) : Prop where
  pairs : database.pairs = entries.map (Entry.pair hash)
  /-- A name is there once. -/
  once : (entries.map fun entry => entry.record.name).Nodup
  /-- The names are those that are found, with the fields that are found. -/
  found : ∀ name fields, (∃ entry ∈ entries, entry.record = ⟨name, fields⟩) ↔
    database.fieldsOf hash name = .ok (some fields)

/-- Pairs that are as a store writes them are those of records with numbers. -/
theorem exists_entries {hash : NameHash} {bound : Nat} {pairs : List Pair}
    (shaped : ∀ pair ∈ pairs, ∃ (record : Record) (number : Nat), record.Fits ∧ number < bound ∧
      pair = (keyOf (hash record.name) number, record.encode)) :
    ∃ entries : List Entry, pairs = entries.map (Entry.pair hash) ∧
      ∀ entry ∈ entries, entry.record.Fits ∧ entry.number < bound := by
  induction pairs with
  | nil => exact ⟨[], rfl, by simp⟩
  | cons head rest ih =>
      obtain ⟨⟨record, number, fits, below, rfl⟩, others⟩ := List.forall_mem_cons.mp shaped
      obtain ⟨entries, rfl, kept⟩ := ih others
      exact ⟨⟨number, record⟩ :: entries, rfl, List.forall_mem_cons.mpr ⟨⟨fits, below⟩, kept⟩⟩

/-- Pairs of records that fit, with different names and small numbers, are as a store writes them. -/
theorem regular_of_entries {database : Database} {hash : NameHash} {bound : Nat}
    {entries : List Entry} (pairs : database.pairs = entries.map (Entry.pair hash))
    (shaped : ∀ entry ∈ entries, entry.record.Fits ∧ entry.number < bound)
    (once : (entries.map fun entry => entry.record.name).Nodup) : database.Regular hash bound where
  shaped := by
    rw [pairs]
    rintro pair member
    obtain ⟨entry, inside, rfl⟩ := List.mem_map.mp member
    exact ⟨entry.record, entry.number, (shaped entry inside).1, (shaped entry inside).2, rfl⟩
  once := by
    rw [pairs]
    rintro first firstMember second secondMember record other holds otherHolds same
    obtain ⟨entry, inside, rfl⟩ := List.mem_map.mp firstMember
    obtain ⟨another, anotherInside, rfl⟩ := List.mem_map.mp secondMember
    cases (Record.decode_encode (shaped entry inside).1).symm.trans holds
    cases (Record.decode_encode (shaped another anotherInside).1).symm.trans otherHolds
    rw [List.inj_on_of_nodup_map once inside anotherInside same]

namespace Regular

variable {database : Database} {hash : NameHash} {bound : Nat}
  (regular : database.Regular hash bound)
include regular

/-- A name is found with some fields when a pair holds the record of both. -/
theorem fieldsOf_eq_iff {name : String} {fields : List Bytes} :
    database.fieldsOf hash name = .ok (some fields) ↔
      ∃ pair ∈ database.pairs, Record.decode pair.2 = .ok ⟨name, fields⟩ := by
  obtain ⟨result, searched⟩ := regular.exists_find name
  rw [fieldsOf, searched]
  cases result with
  | none =>
      refine iff_of_false (fun found => by cases found) ?_
      rintro ⟨pair, member, holds⟩
      exact regular.find_eq_none_iff.mp searched pair member _ holds rfl
  | some found =>
      obtain ⟨value, member, holds⟩ := exists_pair_of_find searched
      constructor
      · intro same
        cases same
        exact ⟨_, member, holds⟩
      · rintro ⟨pair, other, holdsToo⟩
        have same := regular.once pair other _ member _ _ holdsToo holds rfl
        rw [same] at holdsToo
        cases holdsToo.symm.trans holds
        rfl

/-- **A regular database holds records**, and a listing shows these and no other. -/
theorem exists_holds (small : bound ≤ 2 ^ 64) :
    ∃ entries, database.Holds hash entries ∧ ∀ aspect, Listing.ofPairs aspect database.pairs =
      ⟨entries.map fun entry => entry.text hash aspect, none⟩ := by
  obtain ⟨entries, pairs, shaped⟩ := exists_entries regular.shaped
  have listed : ∀ aspect, Listing.ofPairs aspect database.pairs =
      ⟨entries.map fun entry => entry.text hash aspect, none⟩ := by
    intro aspect
    rw [pairs]
    exact Entry.ofPairs_map_pair aspect entries fun entry member =>
      ⟨(shaped entry member).1, Nat.lt_of_lt_of_le (shaped entry member).2 small⟩
  refine ⟨entries, ⟨pairs, ?_, fun name fields => ?_⟩, listed⟩
  · obtain ⟨shown, names, once, _⟩ := regular.names
    cases (listed .name).symm.trans names
    exact once
  · rw [regular.fieldsOf_eq_iff, pairs]
    have decoded : ∀ entry ∈ entries,
        Record.decode (entry.pair hash).2 = .ok entry.record :=
      fun entry member => Record.decode_encode (shaped entry member).1
    constructor
    · rintro ⟨entry, member, same⟩
      exact ⟨_, List.mem_map_of_mem member, (decoded entry member).trans (congrArg _ same)⟩
    · rintro ⟨pair, member, holds⟩
      obtain ⟨entry, there, rfl⟩ := List.mem_map.mp member
      exact ⟨entry, there, Except.ok.inj ((decoded entry there).symm.trans holds)⟩

/-- The record that comes first can be deleted by its name, and the others are left. -/
theorem delete_head {pair : Pair} {rest : List Pair} (pairs : database.pairs = pair :: rest)
    {record : Record} (holds : Record.decode pair.2 = .ok record) :
    ∃ left, database.delete hash record.name = .ok (true, left) ∧ left.pairs = rest ∧
      left.Regular hash bound := by
  have member : pair ∈ database.pairs := pairs ▸ List.mem_cons_self
  obtain ⟨result, searched⟩ := regular.exists_find record.name
  cases result with
  | none => exact absurd rfl (regular.find_eq_none_iff.mp searched pair member record holds)
  | some found =>
      refine ⟨database.erase found.key, ?_, ?_, regular.erase found.key⟩
      · rw [delete, searched]
        rfl
      · have key := regular.key_of_find searched member holds rfl
        have sorted := database.sorted
        rw [pairs] at sorted
        have others : ∀ other ∈ rest, decide (other.1 ≠ pair.1) = true := fun other behind =>
          decide_eq_true fun same =>
            List.lt_irrefl _ (same ▸ (List.pairwise_cons.mp sorted).1 other behind)
        calc (database.erase found.key).pairs
            = (pair :: rest).filter fun other => other.1 ≠ pair.1 := by rw [← key, ← pairs]; rfl
          _ = rest := by
            rw [List.filter_cons_of_neg (by simp), List.filter_eq_self.mpr others]

end Regular

end Database

end Septet
