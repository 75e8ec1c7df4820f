import Septet.Quantity.Basic
import Septet.Text.Utf8

/-!
# Records

A record is a name and a list of fields.  It is written as the length of the
name's UTF-8 bytes, those bytes, the number of fields, and for every field its
length and its bytes; lengths and the number of fields are quantities of 32
bits.  What stands behind the last field is ignored when a record is read.

Reading goes from left to right over a buffer source, and the first part that is
missing or malformed decides the error, which names the position in the whole
buffer.
-/

namespace Septet

set_option autoImplicit false

/-- A named list of byte fields. -/
structure Record where
  name : String
  fields : List Bytes
  deriving DecidableEq, Repr

/-- Why bytes are no record. -/
inductive RecordError where
  /-- A length or the number of fields cannot be read. -/
  | quantity (cause : StreamError)
  /-- The name or a field is longer than what is left of the buffer. -/
  | truncated (needed : Nat) (offset : Nat) (available : Nat)
  | name (cause : Utf8.Error)
  deriving DecidableEq, Repr

def RecordError.message : RecordError → String
  | quantity cause => cause.message
  | truncated needed offset available =>
      s!"Record truncated: need {needed} bytes at offset {offset}, have {available}"
  | name cause => cause.message

namespace Record

/-! ## Writing -/

/-- Bytes behind their length. -/
def encodeChunk (chunk : Bytes) : Bytes :=
  Quantity.encode .bits32 chunk.length ++ chunk

/-- The written form of a record. -/
def encode (record : Record) : Bytes :=
  encodeChunk (Utf8.encode record.name) ++ Quantity.encode .bits32 record.fields.length ++
    record.fields.flatMap encodeChunk

/-! ## Reading -/

/-- A reader of parts of a record. -/
abbrev Reader := EStateM RecordError BufferSource

/-- Reads a quantity of 32 bits. -/
def readQuantity : Reader Nat := fun source =>
  match Quantity.unpack .bits32 source with
  | .ok value after => .ok value after
  | .error cause after => .error (.quantity cause) after

/-- Reads as many bytes as asked for. -/
def readBytes (length : Nat) : Reader Bytes := fun source =>
  let parts := source.unread.splitAt length
  if parts.1.length < length then
    .error (.truncated length source.position source.unread.length) source
  else .ok parts.1 { position := source.position + length, unread := parts.2 }

/-- Reads bytes behind their length. -/
def readChunk : Reader Bytes := do
  readBytes (← readQuantity)

/-- Reads the given number of fields; `earlier` are the fields before them, last one first. -/
def readFields : Nat → List Bytes → Reader (List Bytes)
  | 0, earlier => pure earlier.reverse
  | left + 1, earlier => do
      readFields left ((← readChunk) :: earlier)

/-- Reads a name behind its length. -/
def readName : Reader String := do
  match Utf8.decode (← readChunk) with
  | .ok name => pure name
  | .error cause => throw (.name cause)

/-- Reads a record. -/
def readRecord : Reader Record := do
  let name ← readName
  let count ← readQuantity
  let fields ← readFields count []
  pure { name, fields }

/-- The record at the start of a buffer. -/
def decode (data : Bytes) : Except RecordError Record :=
  match readRecord (BufferSource.ofBytes data) with
  | .ok record _ => .ok record
  | .error cause _ => .error cause

end Record

end Septet
