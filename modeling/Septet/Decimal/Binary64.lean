/-!
# Binary numbers of double precision

A finite number is kept exactly, as a sign, a natural significand below
two to the 53rd and a power of two; besides there are the two infinities and the
value that is no number.  Nothing here computes with rounded operations: a
decimal is turned into the nearest such number once, the even significand
winning a tie, and comparisons with integers are comparisons of products of
natural numbers.
-/

namespace Septet

set_option autoImplicit false

/-- A binary floating-point number of double precision. -/
inductive Binary64 where
  /-- The significand times two to the exponent, with a sign. -/
  | finite (negative : Bool) (significand : Nat) (exponent : Int)
  | infinite (negative : Bool)
  | nan
  deriving DecidableEq, Repr

namespace Binary64

/-! ## Rounding -/

/-- The least exponent, that of the subnormal numbers. -/
def leastExponent : Int := -1074

/-- The greatest exponent of a finite number. -/
def greatestExponent : Int := 971

/-- A zero. -/
def zero (negative : Bool) : Binary64 :=
  .finite negative 0 leastExponent

/-- The natural number nearest to a quotient, the even one of two that are equally near. -/
def roundQuotient (numerator denominator : Nat) : Nat :=
  let quotient := numerator / denominator
  let double := 2 * (numerator % denominator)
  if double < denominator then quotient
  else if denominator < double then quotient + 1
  else quotient + quotient % 2

/-- A quotient divided by a power of a base, as numerator and denominator. -/
def scaleDown (base : Nat) (numerator denominator : Nat) (power : Int) : Nat × Nat :=
  if 0 ≤ power then (numerator, denominator * Nat.pow base power.toNat)
  else (numerator * Nat.pow base (-power).toNat, denominator)

/-- The number nearest to a positive quotient, with a sign. -/
def ofQuotient (negative : Bool) (numerator denominator : Nat) : Binary64 :=
  let estimate : Int := (numerator.log2 : Int) - denominator.log2 - 52
  let scaled := scaleDown 2 numerator denominator estimate
  let exponent := if scaled.1 < scaled.2 * Nat.pow 2 52 then estimate - 1 else estimate
  let exponent := max exponent leastExponent
  let scaled := scaleDown 2 numerator denominator exponent
  let significand := roundQuotient scaled.1 scaled.2
  let (significand, exponent) :=
    if significand = Nat.pow 2 53 then (Nat.pow 2 52, exponent + 1) else (significand, exponent)
  if greatestExponent < exponent then .infinite negative
  else .finite negative significand exponent

/-- The number nearest to a natural number times a power of ten, with a sign.  A power of ten is not
computed when the power of eight with the same exponent shows that the number is too great or too
small to be told from an infinity or a zero. -/
def ofDecimal (negative : Bool) (digits : Nat) (exponent : Int) : Binary64 :=
  let magnitude : Int := digits.log2 + 3 * exponent
  if digits = 0 then zero negative
  else if 0 ≤ exponent then
    if 1024 < magnitude then .infinite negative
    else ofQuotient negative (digits * Nat.pow 10 exponent.toNat) 1
  else if magnitude < -1080 then zero negative
  else ofQuotient negative digits (Nat.pow 10 (-exponent).toNat)

/-! ## Comparison with integers -/

/-- The significand with its sign. -/
def signed (negative : Bool) (significand : Nat) : Int :=
  if negative then -(significand : Int) else significand

/-- Whether a number is less than an integer. -/
def lessThan : Binary64 → Int → Bool
  | .nan, _ => false
  | .infinite negative, _ => negative
  | .finite negative significand exponent, bound =>
      if 0 ≤ exponent then signed negative significand * Int.pow 2 exponent.toNat < bound
      else signed negative significand < bound * Int.pow 2 (-exponent).toNat

/-- Whether a number is greater than an integer. -/
def greaterThan : Binary64 → Int → Bool
  | .nan, _ => false
  | .infinite negative, _ => !negative
  | .finite negative significand exponent, bound =>
      if 0 ≤ exponent then bound < signed negative significand * Int.pow 2 exponent.toNat
      else bound * Int.pow 2 (-exponent).toNat < signed negative significand

/-- Whether a number is a zero. -/
def isZero : Binary64 → Bool
  | .finite _ significand _ => significand == 0
  | _ => false

end Binary64

end Septet
