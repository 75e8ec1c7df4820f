import Septet.Database.Basic
import Septet.Record.Basic

/-!
# Images of databases

Between two runs of a program a database is kept as one byte string, its image: every
key and every value stands behind its length, pair by pair in order.
-/

namespace Septet.Database

set_option autoImplicit false

def image (database : Database) : Bytes :=
  database.pairs.flatMap fun pair => Record.encodeChunk pair.1 ++ Record.encodeChunk pair.2

/-- Reads pairs to the end of a buffer, but no more than `fuel`. -/
def readPairs : Nat → Record.Reader (List Pair)
  | 0 => pure []
  | fuel + 1 => do
      if (← get).unread.isEmpty then pure []
      else
        let key ← Record.readChunk
        let value ← Record.readChunk
        pure ((key, value) :: (← readPairs fuel))

def ofImage (bytes : Bytes) : Except RecordError Database :=
  match readPairs bytes.length (BufferSource.ofBytes bytes) with
  | .ok pairs _ => .ok (empty.insertAll pairs)
  | .error cause _ => .error cause

end Septet.Database
