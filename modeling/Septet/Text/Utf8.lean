import Septet.Text.Hex

/-!
# UTF-8

A character is written as one to four bytes.  Reading is strict: it accepts the
shortest form of a character only, no surrogate and nothing above U+10FFFF.
What may follow a first byte is a fixed number of bytes, each within limits; the
limits of the second byte depend on the first and those of the others do not,
and they alone exclude overlong forms, surrogates and too large numbers.

A refusal names the range of bytes at fault: it starts at a first byte and is the
longest part that could still begin a character, at least one byte.  The reason
is that no character starts with that byte, that the data ends too early, or
that the byte after the range continues nothing.

Reading can also escape what it refuses instead of stopping: every byte of the
range at fault becomes a backslash, an `x` and two hexadecimal digits, and
reading goes on behind the range.
-/

namespace Septet.Utf8

set_option autoImplicit false

/-! ## Writing -/

/-- The bytes of a character. -/
def encodeChar (character : Char) : Bytes :=
  let code := character.toNat
  if code < 0x80 then [UInt8.ofNat code]
  else if code < 0x800 then
    [UInt8.ofNat (0xC0 + code / 64), UInt8.ofNat (0x80 + code % 64)]
  else if code < 0x10000 then
    [UInt8.ofNat (0xE0 + code / 4096), UInt8.ofNat (0x80 + code / 64 % 64),
      UInt8.ofNat (0x80 + code % 64)]
  else
    [UInt8.ofNat (0xF0 + code / 262144), UInt8.ofNat (0x80 + code / 4096 % 64),
      UInt8.ofNat (0x80 + code / 64 % 64), UInt8.ofNat (0x80 + code % 64)]

/-- The bytes of characters, one after the other. -/
def encodeChars (characters : List Char) : Bytes :=
  characters.flatMap encodeChar

/-- The bytes of a text. -/
def encode (text : String) : Bytes :=
  encodeChars text.toList

/-! ## One character -/

/-- Why bytes are no text. -/
inductive Reason where
  | invalidStart
  | invalidContinuation
  | endOfData
  deriving DecidableEq, Repr

/-- The text of a reason. -/
def Reason.text : Reason → String
  | invalidStart => "invalid start byte"
  | invalidContinuation => "invalid continuation byte"
  | endOfData => "unexpected end of data"

/-- What a first byte announces: how many bytes follow, the limits of the second byte, and the
part of the number that the first byte holds. -/
structure Lead where
  following : Nat
  low : Nat
  high : Nat
  payload : Nat
  deriving DecidableEq, Repr

/-- What a byte announces as the first of a character, if a character can start with it. -/
def lead? (byte : UInt8) : Option Lead :=
  let value := byte.toNat
  if value < 0x80 then some ⟨0, 0x80, 0xBF, value⟩
  else if value < 0xC2 then none
  else if value < 0xE0 then some ⟨1, 0x80, 0xBF, value - 0xC0⟩
  else if value < 0xF0 then
    some ⟨2, if value = 0xE0 then 0xA0 else 0x80, if value = 0xED then 0x9F else 0xBF, value - 0xE0⟩
  else if value < 0xF5 then
    some ⟨3, if value = 0xF0 then 0x90 else 0x80, if value = 0xF4 then 0x8F else 0xBF, value - 0xF0⟩
  else none

/-- What the start of a byte string is: a character, or bytes at fault, and in both cases what
comes behind. -/
inductive Step where
  | character (found : Char) (rest : Bytes)
  | fault (range : Bytes) (reason : Reason) (rest : Bytes)
  deriving DecidableEq, Repr

/-- What a step leaves to be read. -/
def Step.rest : Step → Bytes
  | character _ rest => rest
  | fault _ _ rest => rest

/-- Reads the bytes that have to follow.  `taken` are the bytes of the character read so far and
`total` is the number they hold. -/
def continueWith : Nat → Nat → Nat → Bytes → Nat → Bytes → Step
  | 0, _, _, _, total, rest => .character (Char.ofNat total) rest
  | _ + 1, _, _, taken, _, [] => .fault taken .endOfData []
  | left + 1, low, high, taken, total, byte :: rest =>
      if low ≤ byte.toNat ∧ byte.toNat ≤ high then
        continueWith left 0x80 0xBF (taken ++ [byte]) (total * 64 + (byte.toNat - 0x80)) rest
      else .fault taken .invalidContinuation (byte :: rest)

/-- Reads what a byte string with the given first byte starts with. -/
def step (first : UInt8) (rest : Bytes) : Step :=
  match lead? first with
  | none => .fault [first] .invalidStart rest
  | some lead => continueWith lead.following lead.low lead.high [first] lead.payload rest

theorem rest_length_le_of_continueWith :
    ∀ (left low high : Nat) (taken : Bytes) (total : Nat) (rest : Bytes),
      (continueWith left low high taken total rest).rest.length ≤ rest.length
  | 0, _, _, _, _, _ => Nat.le_refl _
  | _ + 1, _, _, _, _, [] => Nat.le_refl _
  | left + 1, low, high, taken, total, byte :: rest => by
      unfold continueWith
      split
      · exact Nat.le_succ_of_le (rest_length_le_of_continueWith left _ _ _ _ rest)
      · exact Nat.le_refl _

/-- A step uses up the first byte at least. -/
theorem rest_length_le_of_step (first : UInt8) (rest : Bytes) :
    (step first rest).rest.length ≤ rest.length := by
  unfold step
  split
  · exact Nat.le_refl _
  · exact rest_length_le_of_continueWith _ _ _ _ _ _

/-! ## Texts -/

/-- Where and why bytes are no text. -/
structure Error where
  /-- The position of the first byte at fault. -/
  position : Nat
  /-- The bytes at fault. -/
  range : Bytes
  /-- What is wrong with them. -/
  reason : Reason
  deriving DecidableEq, Repr

/-- The text of a refusal; a single byte is shown, a longer range is given by its positions. -/
def Error.message (error : Error) : String :=
  match error.range with
  | [byte] =>
      s!"'utf-8' codec can't decode byte 0x{Hex.render [byte]} in position {error.position}: {error.reason.text}"
  | range =>
      s!"'utf-8' codec can't decode bytes in position {error.position}-{error.position + range.length - 1}: {error.reason.text}"

/-- Reads the characters of a byte string; `position` is the place of its first byte. -/
def decodeFrom (position : Nat) (bytes : Bytes) : Except Error (List Char) :=
  match bytes with
  | [] => .ok []
  | first :: rest =>
      match _found : step first rest with
      | .fault range reason _ => .error { position, range, reason }
      | .character character after =>
          match decodeFrom (position + (encodeChar character).length) after with
          | .error error => .error error
          | .ok characters => .ok (character :: characters)
termination_by bytes.length
decreasing_by
  have shorter := rest_length_le_of_step first rest
  rw [_found] at shorter
  exact Nat.lt_succ_of_le shorter

/-- Reads a text, or says where and why the bytes are none. -/
def decode (bytes : Bytes) : Except Error String :=
  (decodeFrom 0 bytes).map String.ofList

/-- A byte as a backslash, an `x` and two hexadecimal digits. -/
def escapeByte (byte : UInt8) : List Char :=
  '\\' :: 'x' :: Hex.renderByte byte

/-- Reads the characters of a byte string and escapes the bytes at fault. -/
def decodeEscapingChars (bytes : Bytes) : List Char :=
  match bytes with
  | [] => []
  | first :: rest =>
      match _found : step first rest with
      | .fault range _ after => range.flatMap escapeByte ++ decodeEscapingChars after
      | .character character after => character :: decodeEscapingChars after
termination_by bytes.length
decreasing_by
  all_goals
    have shorter := rest_length_le_of_step first rest
    rw [_found] at shorter
    exact Nat.lt_succ_of_le shorter

/-- Reads a text and escapes the bytes at fault. -/
def decodeEscaping (bytes : Bytes) : String :=
  String.ofList (decodeEscapingChars bytes)

end Septet.Utf8
