import Septet.Quantity.Width
import Septet.Stream.Buffer

/-!
# Variable-length quantities

A natural number is split into groups of seven bits, the least significant group
first.  The last group is written as it is, so its top bit is clear; every other
group is written as its one's complement, which sets the top bit.  Thus `0` is
`00`, `127` is `7f`, `128` is `ff 01` and `300` is `d3 02`.

An integer is first reduced modulo two to the power of the width, which gives a
negative integer its two's complement pattern.  Reading takes at most as many
bytes as the width allows and drops what a quantity of full length carries
beyond the width.  Both directions are stated in arithmetic: a group is a
remainder modulo 128, and its place is a power of 128.
-/

namespace Septet.Quantity

set_option autoImplicit false

/-! ## Writing -/

/-- The groups of a natural number, each as the byte that it is written as. -/
def encodeNat (value : Nat) : Bytes :=
  if value < 128 then [UInt8.ofNat value]
  else UInt8.ofNat (255 - value % 128) :: encodeNat (value / 128)
termination_by value

/-- An integer as a quantity of a width. -/
def encode (width : Width) (value : Int) : Bytes :=
  encodeNat (width.reduce value)

/-- How many groups of seven bits a natural number has; zero has one. -/
def groupCount (value : Nat) : Nat :=
  if value < 128 then 1 else groupCount (value / 128) + 1
termination_by value

/-- How many bytes an integer takes as a quantity of a width. -/
def encodedSize (width : Width) (value : Int) : Nat :=
  groupCount (width.reduce value)

/-- Writes an integer as a quantity to a sink, byte by byte. -/
def pack {σ : Type} [ByteSink σ] (width : Width) (value : Int) : StreamM σ Unit :=
  ByteSink.putAll (encode width value)

/-! ## Reading -/

/-- Reads the groups that are left of a quantity.  `place` is the weight of the next group and
`total` the sum of the groups before it. -/
def unpackGroups {σ : Type} [ByteSource σ] (width : Width) : Nat → Nat → Nat → StreamM σ Nat
  | 0, _, _ => throw (.overlong width)
  | left + 1, place, total => do
      let byte ← ByteSource.next
      if byte.toNat < 128 then pure ((total + byte.toNat * place) % width.modulus)
      else unpackGroups width left (place * 128) (total + (255 - byte.toNat) * place)

/-- Reads a quantity of a width from a source. -/
def unpack {σ : Type} [ByteSource σ] (width : Width) : StreamM σ Nat :=
  unpackGroups width width.maxBytes 1 0

/-- What decoding at an offset gives. -/
structure Decoded where
  value : Nat
  /-- How many bytes it took. -/
  consumed : Nat
  deriving DecidableEq, Repr

/-- Reads the quantity that starts at an offset of a buffer. -/
def decode (width : Width) (data : Bytes) (offset : Int) : Except StreamError Decoded := do
  let source ← BufferSource.startingAt data offset
  match unpack width source with
  | .ok value after => .ok { value, consumed := after.position - source.position }
  | .error cause _ => .error cause

end Septet.Quantity
