import Septet.Decimal.Binary64

/-!
# Shortest decimals

The text of a number of double precision has the fewest decimal digits that read
back to it, and among decimals with so few digits it is the one nearest to the
number.

The decimals that read back are those within half a unit in the last place of
the significand on either side, a quarter below when the significand is the
least of its binade; the ends belong to them when the significand is even.  For
one digit, two digits and so on up to seventeen the two neighbours of the number
on the grid of decimals with so many digits are tested, in exact arithmetic.
-/

namespace Septet.Decimal

set_option autoImplicit false

/-- A natural number times a power of ten. -/
structure Scaled where
  digits : Nat
  exponent : Int
  deriving DecidableEq, Repr

/-- Moves zeros at the end of the digits into the exponent. -/
def Scaled.strip (decimal : Scaled) : Nat → Scaled
  | 0 => decimal
  | steps + 1 =>
      if decimal.digits % 10 = 0 ∧ decimal.digits ≠ 0 then
        Scaled.strip { digits := decimal.digits / 10, exponent := decimal.exponent + 1 } steps
      else decimal

/-- The decimals that read back to a number, as three numerators over one denominator. -/
structure Interval where
  lower : Nat
  value : Nat
  upper : Nat
  denominator : Nat
  /-- Whether the ends belong to the interval. -/
  closed : Bool
  deriving DecidableEq, Repr

/-- The decimals that read back to a positive number. -/
def Interval.around (significand : Nat) (exponent : Int) : Interval :=
  let below := if significand = Nat.pow 2 52 ∧ Binary64.leastExponent < exponent then 1 else 2
  let power := exponent - 2
  let factor := if 0 ≤ power then Nat.pow 2 power.toNat else 1
  { lower := (4 * significand - below) * factor
    value := 4 * significand * factor
    upper := (4 * significand + 2) * factor
    denominator := if 0 ≤ power then 1 else Nat.pow 2 (-power).toNat
    closed := significand % 2 = 0 }

/-- The interval in units of a power of ten. -/
def Interval.inUnits (interval : Interval) (power : Int) : Interval :=
  if 0 ≤ power then { interval with denominator := interval.denominator * Nat.pow 10 power.toNat }
  else
    let factor := Nat.pow 10 (-power).toNat
    { interval with
      lower := interval.lower * factor
      value := interval.value * factor
      upper := interval.upper * factor }

/-- Whether a natural number of units lies in the interval. -/
def Interval.holds (interval : Interval) (count : Nat) : Bool :=
  let point := count * interval.denominator
  if interval.closed then interval.lower ≤ point && point ≤ interval.upper
  else interval.lower < point && point < interval.upper

/-- The natural number of units that lies in the interval and is nearest to the number. -/
def Interval.nearest? (interval : Interval) : Option Nat :=
  let floor := interval.value / interval.denominator
  match interval.holds floor, interval.holds (floor + 1) with
  | false, false => none
  | true, false => some floor
  | false, true => some (floor + 1)
  | true, true => some (Binary64.roundQuotient interval.value interval.denominator)

/-- The power of ten of the leading digit of a positive quotient. -/
def leadingPower (numerator denominator : Nat) : Int :=
  let estimate : Int :=
    ((Nat.toDigits 10 numerator).length : Int) - (Nat.toDigits 10 denominator).length
  let scaled := Binary64.scaleDown 10 numerator denominator estimate
  if scaled.1 < scaled.2 then estimate - 1 else estimate

/-- The shortest decimal that reads back to a positive number. -/
def shortest (significand : Nat) (exponent : Int) : Scaled :=
  let interval := Interval.around significand exponent
  let leading := leadingPower interval.value interval.denominator
  let found := (List.range 17).findSome? fun (further : Nat) =>
    let power := leading - further
    ((interval.inUnits power).nearest?).map fun digits => ({ digits, exponent := power } : Scaled)
  let decimal := found.getD { digits := interval.value, exponent := 0 }
  decimal.strip 17

/-! ## Layout -/

/-- The digits of a natural number. -/
def digitsOf (value : Nat) : List Char :=
  Nat.toDigits 10 value

/-- The digits of a natural number, with zeros in front up to a width. -/
def padded (width : Nat) (value : Nat) : String :=
  let digits := digitsOf value
  String.ofList (List.replicate (width - digits.length) '0' ++ digits)

/-- A decimal is written positionally, with at least one digit behind the point, when the point
falls at most sixteen digits behind the first digit and at most three zeros stand before it;
otherwise it has one digit before the point and an exponent of at least two digits. -/
def layout (decimal : Scaled) : String :=
  let digits := digitsOf decimal.digits
  let point : Int := digits.length + decimal.exponent
  let zeros := fun (count : Int) => List.replicate count.toNat '0'
  if -4 < point ∧ point ≤ 16 then
    if point ≤ 0 then String.ofList ("0.".toList ++ zeros (-point) ++ digits)
    else if digits.length ≤ point then
      String.ofList (digits ++ zeros (point - digits.length) ++ ".0".toList)
    else String.ofList (digits.take point.toNat ++ '.' :: digits.drop point.toNat)
  else
    let power := point - 1
    let fraction := if digits.length = 1 then [] else '.' :: digits.drop 1
    let sign := if power < 0 then "-" else "+"
    String.ofList (digits.take 1 ++ fraction) ++ "e" ++ sign ++ padded 2 power.natAbs

/-- The text of a number: a zero keeps its sign, and what is no finite number is a word. -/
def text : Binary64 → String
  | .nan => "nan"
  | .infinite negative => if negative then "-inf" else "inf"
  | .finite negative significand exponent =>
      let magnitude := if significand = 0 then "0.0" else layout (shortest significand exponent)
      if negative then "-" ++ magnitude else magnitude

end Septet.Decimal
