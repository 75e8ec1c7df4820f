import Septet.Text.Numeral
import Septet.Text.Quoted
import Septet.Value.Basic

/-!
# The text of a value

A value is shown by its literal: texts are quoted, lists and tables are bracketed
with their elements in order, dates and times are shown by what they are built
from.  Where a value is used as a text, a text is itself, a date or a time has its
standard text, and every other value is its literal.

A value that is or holds an integer beyond the limit for numerals has no literal.
-/

namespace Septet

set_option autoImplicit false

/-! ## Dates and times -/

/-- Numbers between parentheses behind a word. -/
def builtFrom (word : String) (parts : List String) : String :=
  word ++ "(" ++ ", ".intercalate parts ++ ")"

namespace Moment

/-- The literal of an offset from universal time; a negative one counts from a day before. -/
def offsetLiteral (minutes : Int) : String :=
  if minutes = 0 then "datetime.timezone.utc"
  else
    let seconds := s!"seconds={(minutes % 1440) * 60}"
    let parts := if minutes < 0 then ["days=-1", seconds] else [seconds]
    builtFrom "datetime.timezone" [builtFrom "datetime.timedelta" parts]

/-- The literal of a moment. -/
def literal (moment : Moment) : String :=
  let numbers := (moment.date.numbers ++ moment.time.numbers).map toString
  let zone := match moment.offset with
    | none => []
    | some minutes => ["tzinfo=" ++ offsetLiteral minutes]
  builtFrom "datetime.datetime" (numbers ++ zone)

end Moment

/-! ## Values -/

namespace Value

/-- The literal of a truth value. -/
def boolLiteral (value : Bool) : String :=
  if value then "True" else "False"

mutual

/-- The literal of a value, unless an integer is beyond the limit. -/
def literal? : Value → Option String
  | null => some "None"
  | bool value => some (boolLiteral value)
  | int value => Numeral.write? value
  | float value => some (Decimal.text value)
  | text content => some (Quoted.text content)
  | bytes content => some (Quoted.bytes content)
  | list items => (literals? items).map fun parts => "[" ++ ", ".intercalate parts ++ "]"
  | table entries =>
      (entryLiterals? entries).map fun parts => "\x7b" ++ ", ".intercalate parts ++ "\x7d"
  | date day => some (builtFrom "datetime.date" (day.numbers.map toString))
  | time clock => some (builtFrom "datetime.time" (clock.numbers.map toString))
  | moment instant => some instant.literal
  | compression kind =>
      some ("<CompressionType." ++ kind.symbol ++ ": " ++ Quoted.text kind.name ++ ">")
  | logger target => some target.literal
  | comparator _ _ => some "<Comparator>"

/-- The literals of the elements of a list. -/
def literals? : List Value → Option (List String)
  | [] => some []
  | item :: rest => do
      let part ← literal? item
      let parts ← literals? rest
      some (part :: parts)

/-- The literals of the entries of a table. -/
def entryLiterals? : List (String × Value) → Option (List String)
  | [] => some []
  | (key, value) :: rest => do
      let part ← literal? value
      let parts ← entryLiterals? rest
      some ((Quoted.text key ++ ": " ++ part) :: parts)

end

/-- A value where a text is wanted, unless an integer is beyond the limit. -/
def display? : Value → Option String
  | text content => some content
  | date day => some day.text
  | time clock => some clock.text
  | moment instant => some (instant.text " ")
  | other => other.literal?

end Value

/-- The literal of a number, unless it is an integer beyond the limit. -/
def Number.literal? (number : Number) : Option String :=
  (Value.ofNumber number).literal?

end Septet
