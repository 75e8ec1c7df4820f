import Septet.Stream.Basic

/-!
# Buffers

A buffer sink collects what it is given and never refuses a byte.  A buffer
source gives the bytes of a buffer from a chosen position on.  It carries the
bytes that are still unread together with their position, so that reading a
byte splits a list and the position only counts.
-/

namespace Septet

set_option autoImplicit false

/-! ## Sinks -/

/-- A growing buffer. -/
structure BufferSink where
  /-- What has been written so far. -/
  bytes : Bytes := []
  deriving DecidableEq, Repr

instance : ByteSink BufferSink where
  medium := .buffer
  put byte := modify fun sink => { sink with bytes := sink.bytes ++ [byte] }

/-! ## Sources -/

/-- The part of a buffer that is still to be read. -/
structure BufferSource where
  /-- The position of the next byte in the whole buffer. -/
  position : Nat
  /-- The bytes from that position on. -/
  unread : Bytes
  deriving DecidableEq, Repr

namespace BufferSource

/-- The source that starts at the beginning of a buffer. -/
def ofBytes (data : Bytes) : BufferSource :=
  { position := 0, unread := data }

/-- The source that starts at an offset; the end of the buffer is the last offset there is. -/
def startingAt (data : Bytes) (offset : Int) : Except StreamError BufferSource :=
  if 0 ≤ offset ∧ offset ≤ data.length then
    .ok { position := offset.toNat, unread := data.drop offset.toNat }
  else .error (.offsetOutside offset data.length)

/-- How many bytes are still unread. -/
def remaining (source : BufferSource) : Nat :=
  source.unread.length

end BufferSource

instance : ByteSource BufferSource where
  next := fun source =>
    match source.unread with
    | [] => .error (.bufferExhausted source.position) source
    | byte :: rest => .ok byte { position := source.position + 1, unread := rest }

end Septet
