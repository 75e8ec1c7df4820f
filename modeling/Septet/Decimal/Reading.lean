import Septet.Decimal.Binary64

/-!
# Reading decimals

A number of double precision is written with an optional sign, digits with or
without a point, and an optional power of ten; or as one of the words for the
infinities and for what is no number.  Low lines between digits do not count.
Reading gives the number that is nearest to the decimal.
-/

namespace Septet.Decimal

set_option autoImplicit false

/-- The number that decimal digits of ASCII stand for. -/
def ofDigitChars (digits : List Char) : Nat :=
  digits.foldl (fun total digit => 10 * total + (digit.toNat - 48)) 0

/-- The integer that an optional sign and digits stand for, if there are digits. -/
def readExponent? : List Char → Option Int
  | '-' :: digits => if digits.isEmpty || !digits.all Char.isDigit then none
      else some (-(ofDigitChars digits : Int))
  | '+' :: digits => if digits.isEmpty || !digits.all Char.isDigit then none
      else some (ofDigitChars digits)
  | digits => if digits.isEmpty || !digits.all Char.isDigit then none
      else some (ofDigitChars digits)

/-- Reads an unsigned decimal without low lines. -/
def readMagnitude? (negative : Bool) (characters : List Char) : Option Binary64 := do
  let whole := characters.takeWhile Char.isDigit
  let rest := characters.drop whole.length
  let (fraction, rest) := match rest with
    | '.' :: behind => (behind.takeWhile Char.isDigit, behind.dropWhile Char.isDigit)
    | _ => ([], rest)
  guard (!(whole.isEmpty && fraction.isEmpty))
  let power ← match rest with
    | [] => some 0
    | mark :: behind => if mark = 'e' ∨ mark = 'E' then readExponent? behind else none
  some (Binary64.ofDecimal negative (ofDigitChars (whole ++ fraction)) (power - fraction.length))

/-- Reads an unsigned decimal or one of the words. -/
def readUnsigned? (negative : Bool) (characters : List Char) : Option Binary64 :=
  match characters with
  | ['i', 'n', 'f'] => some (.infinite negative)
  | ['n', 'a', 'n'] => some .nan
  | _ => readMagnitude? negative (characters.filter fun character => character != '_')

/-- Reads a decimal. -/
def read (text : String) : Option Binary64 :=
  match text.toList with
  | '-' :: rest => readUnsigned? true rest
  | '+' :: rest => readUnsigned? false rest
  | rest => readUnsigned? false rest

end Septet.Decimal
