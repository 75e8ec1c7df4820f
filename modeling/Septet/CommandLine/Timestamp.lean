import Septet.Value.Calendar

/-!
# Timestamps

The time of a message in a log is written as a day and a time of day, with the
milliseconds behind a comma.  It is counted in milliseconds from the beginning of the
year 1970; a day is found by taking away the days of years and months.
-/

namespace Septet.CommandLine

set_option autoImplicit false

/-- The number of days of a year. -/
def daysInYear (year : Nat) : Nat :=
  if Date.isLeap year then 366 else 365

/-- The year of a day that is counted from the beginning of a year, and the count from its own. -/
def yearOf : Nat → Nat → Nat → Nat × Nat
  | 0, year, days => (year, days)
  | fuel + 1, year, days =>
      if days < daysInYear year then (year, days)
      else yearOf fuel (year + 1) (days - daysInYear year)

/-- The month of a day that is counted from the beginning of a month, and the count from its own. -/
def monthOf (year : Nat) : Nat → Nat → Nat → Nat × Nat
  | 0, month, days => (month, days)
  | fuel + 1, month, days =>
      if days < Date.daysInMonth year month then (month, days)
      else monthOf year fuel (month + 1) (days - Date.daysInMonth year month)

/-- The day that is so many days after the beginning of 1970. -/
def dateOf (days : Nat) : Date :=
  let (year, left) := yearOf (days / 365 + 1) 1970 days
  let (month, left) := monthOf year 12 1 left
  { year, month, day := left + 1 }

/-- The text of a time that is so many milliseconds after the beginning of 1970. -/
def timestamp (milliseconds : Nat) : String :=
  let seconds := milliseconds / 1000
  let time : TimeOfDay := {
    hour := seconds / 3600 % 24
    minute := seconds / 60 % 60
    second := seconds % 60
    microsecond := 0 }
  (dateOf (seconds / 86400)).text ++ " " ++ time.text ++ "," ++
    Decimal.padded 3 (milliseconds % 1000)

end Septet.CommandLine
