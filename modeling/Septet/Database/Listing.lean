import Septet.Database.Lookup
import Septet.Text.Hex
import Septet.Text.Percent

/-!
# Listings

A database is listed pair by pair in the order of the keys, either by the names of
its records or by a line for each.  A line shows the hash, the number, the name with
all but plain characters escaped, and the sizes of the fields; its key is judged
before its value.  The first pair that cannot be shown ends the listing.
-/

namespace Septet

set_option autoImplicit false

/-- What a listing shows of a pair. -/
inductive Aspect where
  | name
  | line
  deriving DecidableEq, Repr

namespace Aspect

/-- The number of bytes of a hash. -/
def hashLength : Nat := 16

def lineOf (key : Bytes) (number : Nat) (record : Record) : String :=
  let sizes := " ".intercalate (record.fields.map fun field => toString field.length)
  "record " ++ Hex.render (key.take hashLength) ++ s!" #{number} " ++ Percent.encode record.name ++
    s!" fields={record.fields.length} sizes=[" ++ sizes ++ "]"

/-- What a listing shows of a pair. -/
def show? : Aspect → Pair → Except RecordError String
  | name, (_, value) => do
      let record ← Record.decode value
      .ok record.name
  | line, (key, value) =>
      match Quantity.decode .bits64 key hashLength with
      | .error cause => .error (.quantity cause)
      | .ok decoded => do
          let record ← Record.decode value
          .ok (lineOf key decoded.value record)

end Aspect

/-- What has been shown, and the error that ended it. -/
structure Listing where
  shown : List String
  failure : Option RecordError
  deriving DecidableEq, Repr

namespace Listing

def ofPairs (aspect : Aspect) : List Pair → Listing
  | [] => { shown := [], failure := none }
  | pair :: rest =>
      match aspect.show? pair with
      | .error cause => { shown := [], failure := some cause }
      | .ok text =>
          let behind := ofPairs aspect rest
          { behind with shown := text :: behind.shown }

end Listing

def Database.list (database : Database) (aspect : Aspect) : Listing :=
  Listing.ofPairs aspect database.pairs

end Septet
