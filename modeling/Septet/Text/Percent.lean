import Septet.Text.Utf8

/-!
# Percent-encoding

A text is made printable ASCII by writing its UTF-8 bytes one by one: letters,
digits and the five marks `_`, `.`, `-`, `~` and `/` stand for themselves, every
other byte is a percent sign and two upper-case hexadecimal digits.
-/

namespace Septet.Percent

set_option autoImplicit false

/-- Whether a byte stands for itself. -/
def isPlain (byte : UInt8) : Bool :=
  let code := byte.toNat
  (97 ≤ code && code ≤ 122) || (65 ≤ code && code ≤ 90) || (48 ≤ code && code ≤ 57) ||
    code == 95 || code == 46 || code == 45 || code == 126 || code == 47

/-- The upper-case hexadecimal digit of a number below sixteen. -/
def digit (value : Nat) : Char :=
  if value < 10 then Char.ofNat (48 + value) else Char.ofNat (55 + value)

/-- A byte as itself or as an escape. -/
def encodeByte (byte : UInt8) : List Char :=
  if isPlain byte then [Char.ofNat byte.toNat]
  else ['%', digit (byte.toNat / 16), digit (byte.toNat % 16)]

/-- The characters of a byte string in percent-encoding. -/
def encodeBytes (bytes : Bytes) : List Char :=
  bytes.flatMap encodeByte

/-- A text in percent-encoding. -/
def encode (text : String) : String :=
  String.ofList (encodeBytes (Utf8.encode text))

end Septet.Percent
