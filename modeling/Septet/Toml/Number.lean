import Septet.Decimal.Reading
import Septet.Text.Hex
import Septet.Text.Numeral
import Septet.Toml.Fault
import Septet.Value.Basic

/-!
# Numbers in settings

An integer is written in decimal, with an optional sign and without zeros in
front, or in hexadecimal, octal or binary behind `0x`, `0o` or `0b`; a decimal
with a fraction or a power of ten is a floating-point number.  Between two digits
a single low line may stand.  The words `inf` and `nan`, with an optional sign,
are floating-point numbers too.

A number ends where no longer beginning of what is unread is one.
-/

namespace Septet.Toml

set_option autoImplicit false

/-! ## Digits -/

/-- Splits off further digits, each of which may follow a low line. -/
def splitFurther (isDigit : Char → Bool) : List Char → List Char × List Char
  | '_' :: digit :: rest =>
      if isDigit digit then
        let parts := splitFurther isDigit rest
        (digit :: parts.1, parts.2)
      else ([], '_' :: digit :: rest)
  | digit :: rest =>
      if isDigit digit then
        let parts := splitFurther isDigit rest
        (digit :: parts.1, parts.2)
      else ([], digit :: rest)
  | [] => ([], [])

/-- Splits off digits with low lines between them; without the low lines. -/
def splitDigits (isDigit : Char → Bool) : List Char → List Char × List Char
  | first :: rest =>
      if isDigit first then
        let parts := splitFurther isDigit rest
        (first :: parts.1, parts.2)
      else ([], first :: rest)
  | [] => ([], [])

def splitSign : List Char → Bool × List Char
  | '-' :: rest => (true, rest)
  | '+' :: rest => (false, rest)
  | unread => (false, unread)

/-- Splits off the digits of a whole number: a single zero, or digits that do not begin with one. -/
def splitWhole : List Char → List Char × List Char
  | '0' :: rest => (['0'], rest)
  | unread => splitDigits Char.isDigit unread

/-- Splits off the digits behind the point, if there are any. -/
def splitFraction (unread : List Char) : List Char × List Char :=
  match unread with
  | '.' :: behind =>
      let parts := splitDigits Char.isDigit behind
      if parts.1.isEmpty then ([], unread) else parts
  | _ => ([], unread)

/-- Whether a power of ten can begin with a character. -/
def marksPower (character : Char) : Bool :=
  character == 'e' || character == 'E'

/-- Splits off a power of ten, if there is one. -/
def splitPower (unread : List Char) : Option Int × List Char :=
  match unread with
  | [] => (none, [])
  | mark :: behind =>
      let (negative, behind) := splitSign behind
      let (digits, rest) := splitDigits Char.isDigit behind
      if marksPower mark && !digits.isEmpty then
        let power : Int := Decimal.ofDigitChars digits
        (some (if negative then -power else power), rest)
      else (none, unread)

/-! ## Numbers with a base -/

/-- The base that a letter behind a zero stands for. -/
def base? : Char → Option Nat
  | 'x' => some 16
  | 'o' => some 8
  | 'b' => some 2
  | _ => none

/-- Whether a character is a digit to a base. -/
def isDigitOf (base : Nat) (character : Char) : Bool :=
  match Hex.value? character with
  | some value => value < base
  | none => false

/-- The number that digits to a base stand for. -/
def numberOf (base : Nat) (digits : List Char) : Nat :=
  digits.foldl (fun total digit => base * total + (Hex.value? digit).getD 0) 0

def takeBased? : List Char → Option (Value × List Char)
  | '0' :: letter :: behind => do
      let base ← base? letter
      let (digits, rest) := splitDigits (isDigitOf base) behind
      guard (!digits.isEmpty)
      some (.int (numberOf base digits), rest)
  | _ => none

/-! ## Decimals -/

/-- The integer of a sign and decimal digits; the text may hold only so many digits. -/
def integerOf (negative : Bool) (digits rest : List Char) : Except Fault (Value × List Char) :=
  if digits.length ≤ Numeral.digitLimit then
    let magnitude : Int := Decimal.ofDigitChars digits
    .ok (.int (if negative then -magnitude else magnitude), rest)
  else .error ⟨.tooManyDigits digits.length, rest⟩

/-- Reads a decimal, if one begins here. -/
def readDecimal? (unread : List Char) : Option (Except Fault (Value × List Char)) :=
  let (negative, behind) := splitSign unread
  let (whole, behind) := splitWhole behind
  let (fraction, behind) := splitFraction behind
  let (power, rest) := splitPower behind
  if whole.isEmpty then none
  else if fraction.isEmpty && power.isNone then some (integerOf negative whole rest)
  else
    let number := Binary64.ofDecimal negative (Decimal.ofDigitChars (whole ++ fraction))
      (power.getD 0 - fraction.length)
    some (.ok (.float number, rest))

/-- Reads one of the words for the infinities and for what is no number. -/
def takeWord? (unread : List Char) : Option (Value × List Char) :=
  match splitSign unread with
  | (negative, 'i' :: 'n' :: 'f' :: rest) => some (.float (.infinite negative), rest)
  | (_, 'n' :: 'a' :: 'n' :: rest) => some (.float .nan, rest)
  | _ => none

/-- Reads a number, if one begins here. -/
def readNumber? (unread : List Char) : Option (Except Fault (Value × List Char)) :=
  (takeBased? unread).map .ok <|> readDecimal? unread <|> (takeWord? unread).map .ok

end Septet.Toml
