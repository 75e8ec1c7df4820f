import Septet.Bytes

/-!
# Databases

A database holds pairs of a key and a value, both byte strings, with no key
twice.  It is the list of its pairs in the order of their keys, so that going
through the pairs in order is going through the list, and the order is part of
the type: every operation that changes the pairs keeps it.

The pairs whose keys have a common start form a view of the database, in which
the keys are written without that start.
-/

namespace Septet

set_option autoImplicit false

/-- A key and its value. -/
abbrev Pair := Bytes × Bytes

/-! ## Sorted lists of pairs -/

/-- Every pair has a smaller key than all pairs behind it. -/
def Sorted (pairs : List Pair) : Prop :=
  pairs.Pairwise fun earlier later => earlier.1 < later.1

/-- The pairs with a value at a key, in place of the value that was there. -/
def insertPair (key value : Bytes) : List Pair → List Pair
  | [] => [(key, value)]
  | (other, held) :: rest =>
      if key < other then (key, value) :: (other, held) :: rest
      else if key = other then (key, value) :: rest
      else (other, held) :: insertPair key value rest

/-- Keys that are neither equal nor in order one way are in order the other way. -/
theorem lt_of_not_lt_of_ne {first second : Bytes} (notBefore : ¬first < second)
    (different : first ≠ second) : second < first := by
  rcases Decidable.em (second < first) with before | notAfter
  · exact before
  · exact absurd (List.le_antisymm (List.not_lt.mp notAfter) (List.not_lt.mp notBefore)) different

/-- Inserting adds one pair and otherwise keeps what is there. -/
theorem mem_of_mem_insertPair {key value : Bytes} {pair : Pair} {pairs : List Pair}
    (member : pair ∈ insertPair key value pairs) : pair = (key, value) ∨ pair ∈ pairs := by
  induction pairs with
  | nil => simpa [insertPair] using member
  | cons head rest ih =>
      obtain ⟨other, held⟩ := head
      simp only [insertPair] at member
      split at member
      · simpa using member
      · split at member
        · rcases List.mem_cons.mp member with same | behind
          · exact .inl same
          · exact .inr (List.mem_cons_of_mem _ behind)
        · rcases List.mem_cons.mp member with same | behind
          · exact .inr (same ▸ List.mem_cons_self)
          · exact (ih behind).imp id (List.mem_cons_of_mem _)

theorem sorted_insertPair (key value : Bytes) {pairs : List Pair} (sorted : Sorted pairs) :
    Sorted (insertPair key value pairs) := by
  induction pairs with
  | nil => simp [insertPair, Sorted]
  | cons head rest ih =>
      obtain ⟨other, held⟩ := head
      obtain ⟨first, tail⟩ := List.pairwise_cons.mp sorted
      simp only [insertPair]
      split
      · next before =>
          refine List.pairwise_cons.mpr ⟨fun pair member => ?_, sorted⟩
          rcases List.mem_cons.mp member with same | behind
          · exact same ▸ before
          · exact List.lt_trans before (first pair behind)
      · next notBefore =>
          split
          · next same =>
              exact List.pairwise_cons.mpr ⟨fun pair member => same ▸ first pair member, tail⟩
          · next different =>
              refine List.pairwise_cons.mpr ⟨fun pair member => ?_, ih tail⟩
              rcases mem_of_mem_insertPair member with same | behind
              · exact same ▸ lt_of_not_lt_of_ne notBefore different
              · exact first pair behind

/-! ## Databases -/

/-- Pairs in the order of their keys. -/
structure Database where
  pairs : List Pair
  sorted : Sorted pairs

namespace Database

def empty : Database where
  pairs := []
  sorted := List.Pairwise.nil

instance : Inhabited Database := ⟨empty⟩

def get? (database : Database) (key : Bytes) : Option Bytes :=
  database.pairs.lookup key

/-- The database with a value at a key. -/
def insert (database : Database) (key value : Bytes) : Database where
  pairs := insertPair key value database.pairs
  sorted := sorted_insertPair key value database.sorted

/-- The database without the pair at a key. -/
def erase (database : Database) (key : Bytes) : Database where
  pairs := database.pairs.filter fun pair => pair.1 ≠ key
  sorted := database.sorted.filter _

/-- The database with pairs written one after the other. -/
def insertAll (database : Database) (pairs : List Pair) : Database :=
  pairs.foldl (fun database pair => database.insert pair.1 pair.2) database

/-! ## Views -/

/-- What is left of a byte string behind a start that it has. -/
def behind? (start key : Bytes) : Option Bytes :=
  if start.isPrefixOf key then some (key.drop start.length) else none

/-- The pairs whose keys have a start, in order, with the keys written without it. -/
def under (database : Database) (start : Bytes) : List Pair :=
  database.pairs.filterMap fun pair =>
    (behind? start pair.1).map fun rest => (rest, pair.2)

end Database

end Septet
