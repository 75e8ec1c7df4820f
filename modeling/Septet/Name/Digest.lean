import Septet.Text.Utf8

/-!
# Name digests

Records are filed under a digest of their name: sixteen bytes, the 128-bit
Murmur3 hash for 64-bit machines with seed zero, as a number written with its
most significant byte first.  The hash works on words of 64 bits that wrap.  It
mixes the data in blocks of two little-endian words; a last incomplete block is
filled up with zeros and mixed in the same way, except that it leaves out the
rotation of the running state.

That every digest has sixteen bytes is part of its type, so no digest is an
initial part of another.
-/

namespace Septet

set_option autoImplicit false

/-! ## Digests -/

/-- Sixteen bytes that stand for a name. -/
structure Digest where
  bytes : Bytes
  length_bytes : bytes.length = 16
  deriving DecidableEq, Repr

/-- A way to assign digests to names. -/
abbrev NameHash := String → Digest

/-- The digest that sixteen bytes are. -/
def Digest.ofBytes? (bytes : Bytes) : Option Digest :=
  if length_bytes : bytes.length = 16 then some { bytes, length_bytes } else none

namespace Murmur3

/-! ## Words -/

/-- The word that at most eight bytes are, least significant byte first. -/
def wordOfBytes : Bytes → UInt64
  | [] => 0
  | byte :: rest => UInt64.ofNat byte.toNat + wordOfBytes rest * 256

/-- A word turned to the left. -/
def rotate (word : UInt64) (distance : UInt64) : UInt64 :=
  (word <<< distance) ||| (word >>> (64 - distance))

/-- The final mixing of a word. -/
def avalanche (word : UInt64) : UInt64 :=
  let first := (word ^^^ (word >>> 33)) * 0xff51afd7ed558ccd
  let second := (first ^^^ (first >>> 33)) * 0xc4ceb9fe1a85ec53
  second ^^^ (second >>> 33)

/-- The eight bytes of a word, most significant byte first. -/
def bytesOfWord (word : UInt64) : Bytes :=
  [word >>> 56, word >>> 48, word >>> 40, word >>> 32, word >>> 24, word >>> 16, word >>> 8, word].map
    fun shifted => UInt8.ofNat (shifted.toNat % 256)

/-! ## State -/

/-- The two words that the data is mixed into. -/
structure State where
  first : UInt64
  second : UInt64
  deriving DecidableEq, Repr

/-- The constant that multiplies the first word of a block. -/
def factorFirst : UInt64 := 0x87c37b91114253d5

/-- The constant that multiplies the second word of a block. -/
def factorSecond : UInt64 := 0x4cf5ad432745937f

/-- The first word of a block, scrambled. -/
def scrambleFirst (word : UInt64) : UInt64 :=
  rotate (word * factorFirst) 31 * factorSecond

/-- The second word of a block, scrambled. -/
def scrambleSecond (word : UInt64) : UInt64 :=
  rotate (word * factorSecond) 33 * factorFirst

/-- Mixes a whole block into the state. -/
def State.mixBlock (state : State) (block : Bytes) : State :=
  let first := rotate (state.first ^^^ scrambleFirst (wordOfBytes (block.take 8))) 27
  let first := (first + state.second) * 5 + 0x52dce729
  let second := rotate (state.second ^^^ scrambleSecond (wordOfBytes (block.drop 8))) 31
  let second := (second + first) * 5 + 0x38495ab5
  { first, second }

/-- Mixes a last, incomplete block into the state. -/
def State.mixTail (state : State) (block : Bytes) : State :=
  { first := state.first ^^^ scrambleFirst (wordOfBytes (block.take 8))
    second := state.second ^^^ scrambleSecond (wordOfBytes (block.drop 8)) }

/-- The state after the given number of whole blocks and what is left behind them. -/
def State.mixAll (state : State) : Nat → Bytes → State
  | 0, data => state.mixTail data
  | blocks + 1, data => (state.mixBlock (data.take 16)).mixAll blocks (data.drop 16)

/-- The state after the length of the data has been mixed in and the words have been spread. -/
def State.finish (state : State) (length : Nat) : State :=
  let first := state.first ^^^ UInt64.ofNat length
  let second := state.second ^^^ UInt64.ofNat length
  let first := first + second
  let second := second + first
  let first := avalanche first
  let second := avalanche second
  let first := first + second
  { first, second := second + first }

def digest (data : Bytes) : Digest :=
  let state := ({ first := 0, second := 0 : State }.mixAll (data.length / 16) data).finish data.length
  { bytes := bytesOfWord state.second ++ bytesOfWord state.first, length_bytes := rfl }

/-- The digest of a name is that of its UTF-8 bytes. -/
def hash : NameHash := fun name =>
  digest (Utf8.encode name)

end Murmur3

end Septet
