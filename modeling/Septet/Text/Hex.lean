import Septet.Bytes

/-!
# Hexadecimal text

Bytes are shown as two lower-case hexadecimal digits each.  Reading is more
liberal than writing: both cases are digits, and blanks may stand between two
bytes, though never inside one.  A refusal names the first offending position;
a character outside ASCII is found before anything else, and a last byte with a
single digit offends at the end of the text.
-/

namespace Septet

set_option autoImplicit false

namespace Hex

/-! ## Digits -/

/-- The lower-case digit of a number below sixteen. -/
def digit (value : Nat) : Char :=
  if value < 10 then Char.ofNat (48 + value) else Char.ofNat (87 + value)

/-- The number that a digit of either case stands for. -/
def value? (character : Char) : Option Nat :=
  let code := character.toNat
  if 48 ≤ code ∧ code ≤ 57 then some (code - 48)
  else if 97 ≤ code ∧ code ≤ 102 then some (code - 87)
  else if 65 ≤ code ∧ code ≤ 70 then some (code - 55)
  else none

/-- The ASCII blanks: space, tab, line feed, vertical tab, form feed, carriage return. -/
def isBlank (character : Char) : Bool :=
  character.toNat == 32 || (9 ≤ character.toNat && character.toNat ≤ 13)

/-! ## Writing -/

/-- The two digits of a byte. -/
def renderByte (byte : UInt8) : List Char :=
  [digit (byte.toNat / 16), digit (byte.toNat % 16)]

/-- The digits of a byte string. -/
def renderChars (bytes : Bytes) : List Char :=
  bytes.flatMap renderByte

/-- The hexadecimal text of a byte string. -/
def render (bytes : Bytes) : String :=
  String.ofList (renderChars bytes)

/-! ## Reading -/

/-- Reads pairs of digits; `position` is the place of the first character. -/
def readPairs : List Char → Nat → Except Nat Bytes
  | [], _ => .ok []
  | first :: rest, position =>
      if isBlank first then readPairs rest (position + 1)
      else
        match value? first with
        | none => .error position
        | some high =>
            match rest with
            | [] => .error (position + 1)
            | second :: rest' =>
                match value? second with
                | none => .error (position + 1)
                | some low =>
                    match readPairs rest' (position + 2) with
                    | .error offending => .error offending
                    | .ok bytes => .ok (UInt8.ofNat (16 * high + low) :: bytes)

/-- Reads hexadecimal text, or says at which position it is none. -/
def readChars (characters : List Char) : Except Nat Bytes :=
  match characters.findIdx? (fun character => 128 ≤ character.toNat) with
  | some position => .error position
  | none => readPairs characters 0

/-- Reads the hexadecimal text of a byte string, or says at which position it is none. -/
def read (text : String) : Except Nat Bytes :=
  readChars text.toList

end Hex

end Septet
