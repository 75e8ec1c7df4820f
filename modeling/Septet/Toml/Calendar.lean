import Septet.Decimal.Reading
import Septet.Toml.Fault
import Septet.Value.Basic

/-!
# Dates and times in settings

A date is written by four, two and two digits between hyphens, a time of day by
two, two and two digits between colons, and up to six digits of a fraction; what
stands behind them in the fraction does not count.  A moment is a date and a time
joined by the letter `t` of either case or by a space, and may have an offset
from universal time: the letter `z` of either case, or a sign, hours and minutes.

Months and days that no year has, and hours, minutes and seconds that no day has,
make no date or time at all.  A day that its month does not have, or the year
zero, is a fault.
-/

namespace Septet.Toml

set_option autoImplicit false

/-! ## Parts -/

/-- Reads a number of exactly `count` digits that is not less than `least` nor greater than `most`. -/
def takeNumber? (count least most : Nat) (unread : List Char) : Option (Nat × List Char) :=
  let digits := unread.take count
  let value := Decimal.ofDigitChars digits
  if digits.length = count ∧ digits.all Char.isDigit ∧ least ≤ value ∧ value ≤ most then
    some (value, unread.drop count)
  else none

def takeMark? (mark : Char) : List Char → Option (List Char)
  | [] => none
  | first :: rest => if first = mark then some rest else none

/-- The number of microseconds that the digits of a fraction of a second stand for. -/
def microsecondsOf (digits : List Char) : Nat :=
  let counted := digits.take 6
  Decimal.ofDigitChars counted * Nat.pow 10 (6 - counted.length)

/-- Reads the fraction of a second, if there is one. -/
def takeFraction (unread : List Char) : Nat × List Char :=
  match unread with
  | '.' :: behind =>
      let digits := behind.takeWhile Char.isDigit
      if digits.isEmpty then (0, unread) else (microsecondsOf digits, behind.dropWhile Char.isDigit)
  | _ => (0, unread)

/-! ## Times, dates and offsets -/

def takeTime? (unread : List Char) : Option (TimeOfDay × List Char) := do
  let (hour, rest) ← takeNumber? 2 0 23 unread
  let (minute, rest) ← takeNumber? 2 0 59 (← takeMark? ':' rest)
  let (second, rest) ← takeNumber? 2 0 59 (← takeMark? ':' rest)
  let (microsecond, rest) := takeFraction rest
  some ({ hour, minute, second, microsecond }, rest)

/-- Reads a date, which need not be in the calendar. -/
def takeDate? (unread : List Char) : Option (Date × List Char) := do
  let (year, rest) ← takeNumber? 4 0 9999 unread
  let (month, rest) ← takeNumber? 2 1 12 (← takeMark? '-' rest)
  let (day, rest) ← takeNumber? 2 1 31 (← takeMark? '-' rest)
  some ({ year, month, day }, rest)

/-- Reads the hours and minutes of an offset; the number of minutes. -/
def takeMinutes? (unread : List Char) : Option (Nat × List Char) := do
  let (hours, rest) ← takeNumber? 2 0 23 unread
  let (minutes, rest) ← takeNumber? 2 0 59 (← takeMark? ':' rest)
  some (60 * hours + minutes, rest)

/-- Reads an offset from universal time, if there is one. -/
def takeOffset (unread : List Char) : Option Int × List Char :=
  match unread with
  | 'Z' :: rest => (some 0, rest)
  | 'z' :: rest => (some 0, rest)
  | '+' :: behind =>
      match takeMinutes? behind with
      | some (minutes, rest) => (some minutes, rest)
      | none => (none, unread)
  | '-' :: behind =>
      match takeMinutes? behind with
      | some (minutes, rest) => (some (-minutes), rest)
      | none => (none, unread)
  | _ => (none, unread)

/-- Whether a date and a time can be joined by a character. -/
def joinsMoment (character : Char) : Bool :=
  character == 'T' || character == 't' || character == ' '

/-- Reads the time of day of a moment. -/
def takeJoinedTime? : List Char → Option (TimeOfDay × List Char)
  | [] => none
  | first :: rest => if joinsMoment first then takeTime? rest else none

/-! ## Values -/

/-- The value of a date that has been read, or of the moment that begins with it. -/
def dated (day : Date) (unread : List Char) : Value × List Char :=
  match takeJoinedTime? unread with
  | none => (.date day, unread)
  | some (clock, behind) =>
      let (offset, rest) := takeOffset behind
      (.moment { date := day, time := clock, offset }, rest)

/-- Reads a date, a moment or a time of day, if one begins here. -/
def readCalendar? (unread : List Char) : Option (Except Fault (Value × List Char)) :=
  match takeDate? unread with
  | some (day, rest) =>
      some (if day.isValid then .ok (dated day rest) else .error ⟨.invalidDate, unread⟩)
  | none => (takeTime? unread).map fun (clock, rest) => .ok (.time clock, rest)

end Septet.Toml
