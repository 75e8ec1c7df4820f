import Septet.Database.Basic
import Septet.Name.Digest
import Septet.Record.Basic

/-!
# Finding records

The record of a name is kept under a key that begins with the hash of the name and
goes on with a sequence number, a quantity of 64 bits, which tells names with the
same hash apart.  A name is therefore looked for among all pairs under its hash, in
the order of their keys, and the first pair that holds a record of the name is the
one; a pair before it that holds no record at all is an error.

A new name gets the number after the greatest one under its hash.
-/

namespace Septet

set_option autoImplicit false

/-- Where a record is kept, and its fields. -/
structure Found where
  key : Bytes
  fields : List Bytes
  deriving DecidableEq, Repr

namespace Database

/-- The first of some pairs that holds a record of a name. -/
def firstNamed (name : String) : List Pair → Except RecordError (Option Found)
  | [] => .ok none
  | (key, value) :: rest => do
      let record ← Record.decode value
      if record.name = name then .ok (some { key, fields := record.fields })
      else firstNamed name rest

/-- The record of a name. -/
def find (database : Database) (hash : NameHash) (name : String) :
    Except RecordError (Option Found) := do
  let start := (hash name).bytes
  let found ← firstNamed name (database.under start)
  .ok (found.map fun found => { found with key := start ++ found.key })

/-- The least number that is not less than `least` and greater than those of all given keys. -/
def numberAfter (least : Nat) : List Pair → Except StreamError Nat
  | [] => .ok least
  | (key, _) :: rest => do
      let decoded ← Quantity.decode .bits64 key 0
      numberAfter (max least (decoded.value + 1)) rest

/-- The number after all numbers under a hash. -/
def nextNumber (database : Database) (digest : Digest) : Except StreamError Nat :=
  numberAfter 0 (database.under digest.bytes)

def keyOf (digest : Digest) (number : Nat) : Bytes :=
  digest.bytes ++ Quantity.encode .bits64 number

/-- The database without the record of a name, and whether there was one. -/
def delete (database : Database) (hash : NameHash) (name : String) :
    Except RecordError (Bool × Database) := do
  match ← database.find hash name with
  | none => .ok (false, database)
  | some found => .ok (true, database.erase found.key)

end Database

end Septet
