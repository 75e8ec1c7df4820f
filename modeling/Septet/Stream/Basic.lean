import Septet.Bytes
import Septet.Quantity.Width

/-!
# Byte sinks and byte sources

Quantities are written to a sink and read from a source one byte at a time, so
all that a sink has to offer is to take one byte and all that a source has to
offer is to give one.  Both may fail, and what they had taken or given before
the failure stays taken or given: an operation is a state transformer that
returns the state after a failure too.

The module also names every cause for which reading or writing can fail and
gives the text of each.
-/

namespace Septet

set_option autoImplicit false

/-! ## Causes of failure -/

/-- What a stream of bytes is kept in. -/
inductive Medium where
  | buffer
  | file
  deriving DecidableEq, Repr

/-- Why bytes or quantities could not be written or read. -/
inductive StreamError where
  /-- A buffer has no byte at the offset. -/
  | bufferExhausted (offset : Nat)
  | fileExhausted
  /-- A quantity has no final byte among the greatest number of bytes of its width. -/
  | overlong (width : Width)
  /-- A reading position does not lie within the buffer. -/
  | offsetOutside (offset : Int) (length : Nat)
  /-- An integer is no byte. -/
  | notByte (medium : Medium)
  | negativeSeek (target : Int)
  /-- A file takes no more bytes. -/
  | diskFull
  /-- A file gives no more bytes. -/
  | deviceNotReady
  deriving DecidableEq, Repr

def StreamError.message : StreamError → String
  | bufferExhausted offset => s!"Buffer exhausted at offset {offset}"
  | fileExhausted => "Unexpected end of file"
  | overlong width =>
      s!"Variable-length quantity exceeds {width.maxBytes} bytes for a {width.bits}-bit integer"
  | offsetOutside offset length => s!"Offset {offset} is outside the buffer (length {length})"
  | notByte .buffer => "byte must be in range(0, 256)"
  | notByte .file => "bytes must be in range(0, 256)"
  | negativeSeek target => s!"negative seek value {target}"
  | diskFull => "disk full"
  | deviceNotReady => "device not ready"

/-! ## Sinks and sources -/

/-- An operation on a stream: it may fail, and the stream has a state after a failure too. -/
abbrev StreamM (σ : Type) := EStateM StreamError σ

/-- Something that takes bytes one after the other. -/
class ByteSink (σ : Type) where
  /-- What the bytes are kept in. -/
  medium : Medium
  /-- Takes one byte. -/
  put : UInt8 → StreamM σ Unit

/-- Something that gives bytes one after the other. -/
class ByteSource (σ : Type) where
  /-- Gives the next byte. -/
  next : StreamM σ UInt8

/-- Writes an integer as one byte; an integer that is no byte is refused before the sink is touched. -/
def ByteSink.writeByte {σ : Type} [ByteSink σ] (value : Int) : StreamM σ Unit :=
  if 0 ≤ value ∧ value < 256 then ByteSink.put (UInt8.ofNat value.toNat)
  else throw (.notByte (ByteSink.medium σ))

/-- Writes bytes in order, up to the first that the sink refuses. -/
def ByteSink.putAll {σ : Type} [ByteSink σ] : Bytes → StreamM σ Unit
  | [] => pure ()
  | byte :: rest => do
      ByteSink.put byte
      ByteSink.putAll rest

end Septet
