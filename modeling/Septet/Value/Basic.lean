import Septet.Bytes
import Septet.Decimal.Binary64
import Septet.Value.Calendar
import Septet.Value.Logger

/-!
# Dynamic values

Knobs and settings are given by people and files, so their values are of any
kind: what a settings file can hold, bytes, and the three kinds of objects that
only a program can hand over, which are a compression, a logger and a comparator.

Some knobs are compared with integers.  Truth values, integers and floating-point
numbers can be compared; they form the type `Number`.
-/

namespace Septet

set_option autoImplicit false

/-! ## Compressions -/

/-- How the database compresses its blocks. -/
inductive Compression where
  | none
  | snappy
  deriving DecidableEq, Repr

namespace Compression

/-- The name of a compression in settings. -/
def name : Compression → String
  | none => "none"
  | snappy => "snappy"

/-- The name of a compression in programs. -/
def symbol : Compression → String
  | none => "NONE"
  | snappy => "SNAPPY"

/-- All compressions. -/
def all : List Compression := [none, snappy]

/-- The compression of a name. -/
def ofName? (name : String) : Option Compression :=
  all.find? fun compression => compression.name == name

end Compression

/-! ## Numbers -/

/-- What can be compared with an integer. -/
inductive Number where
  | bool (value : Bool)
  | int (value : Int)
  | float (value : Binary64)
  deriving DecidableEq, Repr

namespace Number

/-- Whether a number is less than an integer; truth values count as one and zero. -/
def lessThan : Number → Int → Bool
  | bool value, bound => (if value then 1 else 0) < bound
  | int value, bound => value < bound
  | float value, bound => value.lessThan bound

/-- Whether a number is greater than an integer. -/
def greaterThan : Number → Int → Bool
  | bool value, bound => bound < (if value then 1 else 0)
  | int value, bound => bound < value
  | float value, bound => value.greaterThan bound

end Number

/-! ## Values -/

/-- A value of any kind. -/
inductive Value where
  | null
  | bool (value : Bool)
  | int (value : Int)
  | float (value : Binary64)
  | text (content : String)
  | bytes (content : Bytes)
  | list (items : List Value)
  | table (entries : List (String × Value))
  | date (date : Date)
  | time (time : TimeOfDay)
  | moment (moment : Moment)
  | compression (compression : Compression)
  | logger (target : Logger)
  /-- A comparator may have a name and the function that it is may have one. -/
  | comparator (function : Option String) (name : Option Value)
  deriving Repr, Inhabited

/-- The entries of a table, in their order. -/
abbrev Table := List (String × Value)

namespace Value

/-- What the kind of a value is called in error texts. -/
def kind : Value → String
  | null => "NoneType"
  | bool _ => "bool"
  | int _ => "int"
  | float _ => "float"
  | text _ => "str"
  | bytes _ => "bytes"
  | list _ => "list"
  | table _ => "dict"
  | date _ => "datetime.date"
  | time _ => "datetime.time"
  | moment _ => "datetime.datetime"
  | compression _ => "CompressionType"
  | logger target => target.kind
  | comparator _ _ => "Comparator"

/-- Whether a value counts as given: zeros and what is empty do not. -/
def isTruthy : Value → Bool
  | null => false
  | bool value => value
  | int value => value != 0
  | float value => !value.isZero
  | text content => !content.isEmpty
  | bytes content => !content.isEmpty
  | list items => !items.isEmpty
  | table entries => !entries.isEmpty
  | _ => true

/-- The number that a value is. -/
def number? : Value → Option Number
  | bool value => some (.bool value)
  | int value => some (.int value)
  | float value => some (.float value)
  | _ => none

/-- A number as a value. -/
def ofNumber : Number → Value
  | .bool value => bool value
  | .int value => int value
  | .float value => float value

end Value

end Septet
