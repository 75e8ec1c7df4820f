import Septet.Options.Arguments

/-!
# Words

A database keeps the numbers that it is opened with in machine words: sizes in
unsigned words of 64 bits, counts in signed words of 32 bits.  An integer outside
the range of its word is a reason not to open the database (`fault?_eq_none_iff`),
and of several such integers the first counts, in the order in which the database
takes its arguments.

A count is brought to a word of 64 bits on its way to one of 32, so a count that is
too great for the first is told apart from one that is too great for the second only.
-/

namespace Septet

set_option autoImplicit false

/-! ## Words and their ranges -/

/-- The machine word that a database keeps a number in. -/
inductive Word where
  | size
  | count
  deriving DecidableEq, Repr

/-- Why an integer does not fit in a word. -/
inductive WordError where
  | negativeSize
  /-- A size needs more than 64 bits. -/
  | longSize
  /-- A count needs more than 64 bits. -/
  | longCount
  /-- A count needs more than 32 bits, and no more than 64. -/
  | wideCount
  deriving DecidableEq, Repr

def WordError.message : WordError → String
  | negativeSize => "can't convert negative value to size_t"
  | longSize => "Python int too large to convert to C unsigned long"
  | longCount => "Python int too large to convert to C long"
  | wideCount => "value too large to convert to int"

namespace Word

/-- The least integer that a word holds. -/
def least : Word → Int
  | size => 0
  | count => -Int.pow 2 31

/-- The least positive integer that a word is too small for. -/
def bound : Word → Int
  | size => Int.pow 2 64
  | count => Int.pow 2 31

/-- Why an integer does not fit in a word, if it does not. -/
def fault? : Word → Int → Option WordError
  | size, value =>
      if value < 0 then some .negativeSize
      else if Int.pow 2 64 ≤ value then some .longSize
      else none
  | count, value =>
      if value < -Int.pow 2 63 ∨ Int.pow 2 63 ≤ value then some .longCount
      else if value < -Int.pow 2 31 ∨ Int.pow 2 31 ≤ value then some .wideCount
      else none

/-- An integer fits in a word exactly when it lies in its range. -/
theorem fault?_eq_none_iff (word : Word) (value : Int) :
    word.fault? value = none ↔ word.least ≤ value ∧ value < word.bound := by
  cases word with
  | size =>
      have long : Int.pow 2 64 = 18446744073709551616 := rfl
      simp only [fault?, least, bound, long]
      split <;> (try split) <;> simp <;> omega
  | count =>
      have narrow : Int.pow 2 31 = 2147483648 := rfl
      have wide : Int.pow 2 63 = 9223372036854775808 := rfl
      simp only [fault?, least, bound, narrow, wide]
      split <;> (try split) <;> simp <;> omega

end Word

/-! ## The words of a database -/

namespace Options

/-- The arguments that a database keeps in words, in the order in which it takes them. -/
def wordArguments : List (String × Word) :=
  [("bloom_filter_bits", .count), ("write_buffer_size", .size), ("max_open_files", .count),
    ("lru_cache_size", .size), ("block_size", .size), ("block_restart_interval", .count),
    ("max_file_size", .size)]

/-- Why a database cannot take its arguments, if an integer among them does not fit in its word. -/
def wordFault? (arguments : Table) : Option WordError :=
  wordArguments.findSome? fun (name, word) =>
    match arguments.lookup name with
    | some (.int value) => word.fault? value
    | _ => none

end Options

end Septet
