import Septet.Decimal.Shortest

/-!
# Dates and times

Days of the proleptic calendar from year 1 to year 9999, times of day to the
microsecond, and moments that join both and may have an offset from universal
time.  Each has two texts: the standard one, and one that shows how it is built
from numbers, in which seconds and microseconds are left out when they are zero.
-/

namespace Septet

set_option autoImplicit false

/-! ## Dates -/

/-- A day. -/
structure Date where
  year : Nat
  month : Nat
  day : Nat
  deriving DecidableEq, Repr

namespace Date

/-- Whether a year has a leap day. -/
def isLeap (year : Nat) : Bool :=
  year % 4 == 0 && (year % 100 != 0 || year % 400 == 0)

/-- The number of days of a month. -/
def daysInMonth (year month : Nat) : Nat :=
  if month = 2 then if isLeap year then 29 else 28
  else if month = 4 ∨ month = 6 ∨ month = 9 ∨ month = 11 then 30
  else 31

/-- Whether there is such a day. -/
def isValid (date : Date) : Bool :=
  1 ≤ date.year && date.year ≤ 9999 && 1 ≤ date.month && date.month ≤ 12 &&
    1 ≤ date.day && date.day ≤ daysInMonth date.year date.month

/-- The standard text of a day. -/
def text (date : Date) : String :=
  Decimal.padded 4 date.year ++ "-" ++ Decimal.padded 2 date.month ++ "-" ++
    Decimal.padded 2 date.day

/-- The numbers of a day. -/
def numbers (date : Date) : List Nat :=
  [date.year, date.month, date.day]

end Date

/-! ## Times of day -/

/-- A time of day. -/
structure TimeOfDay where
  hour : Nat
  minute : Nat
  second : Nat
  microsecond : Nat
  deriving DecidableEq, Repr

namespace TimeOfDay

/-- The standard text of a time of day. -/
def text (time : TimeOfDay) : String :=
  let whole := Decimal.padded 2 time.hour ++ ":" ++ Decimal.padded 2 time.minute ++ ":" ++
    Decimal.padded 2 time.second
  if time.microsecond = 0 then whole else whole ++ "." ++ Decimal.padded 6 time.microsecond

/-- The numbers of a time of day, less zeros for microseconds and seconds at the end. -/
def numbers (time : TimeOfDay) : List Nat :=
  if time.microsecond ≠ 0 then [time.hour, time.minute, time.second, time.microsecond]
  else if time.second ≠ 0 then [time.hour, time.minute, time.second]
  else [time.hour, time.minute]

end TimeOfDay

/-! ## Moments -/

/-- A day and a time of day, with an offset from universal time in minutes if one is known. -/
structure Moment where
  date : Date
  time : TimeOfDay
  offset : Option Int
  deriving DecidableEq, Repr

namespace Moment

/-- The standard text of an offset. -/
def offsetText (minutes : Int) : String :=
  (if minutes < 0 then "-" else "+") ++ Decimal.padded 2 (minutes.natAbs / 60) ++ ":" ++
    Decimal.padded 2 (minutes.natAbs % 60)

/-- The standard text of a moment, with a given text between day and time. -/
def text (separator : String) (moment : Moment) : String :=
  moment.date.text ++ separator ++ moment.time.text ++
    match moment.offset with
    | none => ""
    | some minutes => offsetText minutes

end Moment

end Septet
