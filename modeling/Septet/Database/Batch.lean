import Septet.Database.Lookup
import Septet.Value.Text

/-!
# Writing batches of records

Several records are written at once or not at all.  While a batch is put together,
names and numbers are looked up in the database as it was before the batch, so the
batch itself remembers the key of every name that it writes and the numbers that it
has given out.  A name gets the key that it has in the batch, or else the one that
it has in the database, or else a new one.

A batch of more records than the limit is refused before anything is looked up.
-/

namespace Septet

set_option autoImplicit false

/-- Why a batch could not be written. -/
inductive BatchError where
  | tooMany (count : Nat) (limit : Number)
  /-- A pair that holds no record was met while a name was looked for. -/
  | record (cause : RecordError)
  /-- A key without a number was met while a number was looked for. -/
  | number (cause : StreamError)
  deriving DecidableEq, Repr

/-- The text of a refusal; a limit without a literal is not shown. -/
def BatchError.message : BatchError → String
  | tooMany count limit =>
      match limit.literal? with
      | some literal => s!"Batch of {count} records exceeds the limit of " ++ literal
      | none => Numeral.limitText none
  | record cause => cause.message
  | number cause => cause.message

/-- What has been put together of a batch. -/
structure Batch where
  /-- The pairs to be written, in order. -/
  pairs : List Pair := []
  /-- The keys of the names in the batch. -/
  keys : List (String × Bytes) := []
  /-- The numbers after those given out, by hash; the first entry of a hash counts. -/
  numbers : List (Digest × Nat) := []
  deriving Repr

namespace Batch

/-- A key that is new under a hash, and the batch that has given out its number. -/
def newKey (batch : Batch) (database : Database) (digest : Digest) :
    Except BatchError (Bytes × Batch) :=
  match database.nextNumber digest with
  | .error cause => .error (.number cause)
  | .ok stored =>
      let number := max stored ((batch.numbers.lookup digest).getD 0)
      .ok (Database.keyOf digest number,
        { batch with numbers := (digest, number + 1) :: batch.numbers })

/-- The key for a name; the name is looked for in the database whether it is in the batch or not. -/
def keyFor (batch : Batch) (database : Database) (hash : NameHash) (name : String) :
    Except BatchError (Bytes × Batch) :=
  match database.find hash name with
  | .error cause => .error (.record cause)
  | .ok found =>
      match batch.keys.lookup name, found with
      | some key, _ => .ok (key, batch)
      | none, some found => .ok (found.key, batch)
      | none, none => batch.newKey database (hash name)

def add (batch : Batch) (database : Database) (hash : NameHash) (record : Record) :
    Except BatchError Batch := do
  let (key, batch) ← batch.keyFor database hash record.name
  .ok { batch with
    pairs := batch.pairs ++ [(key, record.encode)]
    keys := (record.name, key) :: batch.keys }

def addAll (batch : Batch) (database : Database) (hash : NameHash) :
    List Record → Except BatchError Batch
  | [] => .ok batch
  | record :: rest => do
      let batch ← batch.add database hash record
      batch.addAll database hash rest

end Batch

namespace Database

/-- The database with a batch of records written. -/
def putMany (database : Database) (hash : NameHash) (limit : Number) (records : List Record) :
    Except BatchError Database := do
  if limit.lessThan records.length then .error (.tooMany records.length limit)
  else
    let batch ← Batch.addAll {} database hash records
    .ok (database.insertAll batch.pairs)

/-- The database with one record written. -/
def put (database : Database) (hash : NameHash) (limit : Number) (record : Record) :
    Except BatchError Database :=
  database.putMany hash limit [record]

end Database

end Septet
