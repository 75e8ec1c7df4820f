import Septet.Text.Hex

/-!
# Integers as text

An integer is written by people with an optional sign and decimal digits of any
script, between two of which a single low line may stand; blanks around it do not
count.  Blanks are those of ASCII and, beyond ASCII, the characters that Unicode
calls white space.  A numeral of more than 4300 digits is refused, and an integer
that would need one is not written.

The decimal digits of Unicode come in rows of ten, so a row is given by its zero.
-/

namespace Septet.Numeral

set_option autoImplicit false

/-! ## Characters -/

/-- The zeros of the rows of decimal digits. -/
def zeros : List Nat :=
  [0x30, 0x660, 0x6F0, 0x7C0, 0x966, 0x9E6, 0xA66, 0xAE6, 0xB66, 0xBE6, 0xC66, 0xCE6, 0xD66,
    0xDE6, 0xE50, 0xED0, 0xF20, 0x1040, 0x1090, 0x17E0, 0x1810, 0x1946, 0x19D0, 0x1A80, 0x1A90,
    0x1B50, 0x1BB0, 0x1C40, 0x1C50, 0xA620, 0xA8D0, 0xA900, 0xA9D0, 0xA9F0, 0xAA50, 0xABF0,
    0xFF10, 0x104A0, 0x10D30, 0x11066, 0x110F0, 0x11136, 0x111D0, 0x112F0, 0x11450, 0x114D0,
    0x11650, 0x116C0, 0x11730, 0x118E0, 0x11950, 0x11C50, 0x11D50, 0x11DA0, 0x16A60, 0x16AC0,
    0x16B50, 0x1D7CE, 0x1D7D8, 0x1D7E2, 0x1D7EC, 0x1D7F6, 0x1E140, 0x1E2F0, 0x1E950, 0x1FBF0]

/-- The number that a decimal digit stands for. -/
def digit? (character : Char) : Option Nat :=
  let code := character.toNat
  (zeros.find? fun start => start ≤ code && code < start + 10).map fun start => code - start

/-- Whether a character is a decimal digit of some script. -/
def isDigit (character : Char) : Bool :=
  (digit? character).isSome

/-- The blanks beyond ASCII. -/
def wideBlanks : List Nat :=
  [0x85, 0xA0, 0x1680, 0x2000, 0x2001, 0x2002, 0x2003, 0x2004, 0x2005, 0x2006, 0x2007, 0x2008,
    0x2009, 0x200A, 0x2028, 0x2029, 0x202F, 0x205F, 0x3000]

/-- Whether a character is a blank. -/
def isBlank (character : Char) : Bool :=
  Hex.isBlank character || wideBlanks.contains character.toNat

/-! ## The limit -/

/-- The greatest number of digits of a numeral. -/
def digitLimit : Nat := 4300

/-- What is said of a numeral beyond the limit, with its number of digits if it was read. -/
def limitText (count : Option Nat) : String :=
  let told := match count with
    | none => ""
    | some count => s!": value has {count} digits"
  s!"Exceeds the limit ({digitLimit} digits) for integer string conversion" ++ told ++
    "; use sys.set_int_max_str_digits() to increase the limit"

/-! ## Writing -/

/-- The numeral of an integer, unless it is beyond the limit. -/
def write? (value : Int) : Option String :=
  let digits := Nat.toDigits 10 value.natAbs
  if digits.length ≤ digitLimit then
    some ((if value < 0 then "-" else "") ++ String.ofList digits)
  else none

/-! ## Reading -/

/-- Reads digits with single low lines between them; the numbers of the digits, in order. -/
def readDigits : List Char → Option (List Nat)
  | [] => none
  | [last] => (digit? last).map fun value => [value]
  | first :: '_' :: rest => do
      let value ← digit? first
      let values ← readDigits rest
      some (value :: values)
  | first :: rest => do
      let value ← digit? first
      let values ← readDigits rest
      some (value :: values)

/-- The number that digits stand for. -/
def ofDigits (values : List Nat) : Nat :=
  values.foldl (fun total value => 10 * total + value) 0

/-- Reads an unsigned numeral. -/
def readUnsigned (characters : List Char) : Option Nat := do
  let values ← readDigits characters
  if values.length ≤ digitLimit then some (ofDigits values) else none

/-- A list without the blanks at its ends. -/
def trim (characters : List Char) : List Char :=
  ((characters.dropWhile isBlank).reverse.dropWhile isBlank).reverse

/-- Reads the integer that a text is the numeral of. -/
def readChars (characters : List Char) : Option Int :=
  match trim characters with
  | '-' :: rest => (readUnsigned rest).map fun value => -(value : Int)
  | '+' :: rest => (readUnsigned rest).map fun value => (value : Int)
  | rest => (readUnsigned rest).map fun value => (value : Int)

/-- Reads the integer that a text is the numeral of. -/
def read (text : String) : Option Int :=
  readChars text.toList

end Septet.Numeral
