import Septet.Text.Hex
import Septet.Text.Printable

/-!
# Quoted text

Texts and byte strings are shown between quotes, with escapes for what would not
show.  The quote is the apostrophe, unless the content has an apostrophe and no
quotation mark.  The backslash and the quote are escaped by a backslash; line
feed, carriage return and tab by a letter; what else does not show by its number
in hexadecimal, of two, four or eight digits.  A byte string is marked by a `b`
before the quote, and its bytes beyond ASCII are escaped too.
-/

namespace Septet.Quoted

set_option autoImplicit false

/-- The quote for a content. -/
def quoteFor (characters : List Char) : Char :=
  if characters.contains '\'' && !characters.contains '"' then '"' else '\''

/-- A number as the given count of lower-case hexadecimal digits. -/
def hexDigits : Nat → Nat → List Char
  | 0, _ => []
  | count + 1, value => hexDigits count (value / 16) ++ [Hex.digit (value % 16)]

/-- The escape of a character by its number. -/
def escapeCode (code : Nat) : List Char :=
  if code < 0x100 then '\\' :: 'x' :: hexDigits 2 code
  else if code < 0x10000 then '\\' :: 'u' :: hexDigits 4 code
  else '\\' :: 'U' :: hexDigits 8 code

/-- A character between quotes. -/
def escapeChar (quote : Char) (shows : Char → Bool) (character : Char) : List Char :=
  if character == quote || character == '\\' then ['\\', character]
  else if character == '\n' then ['\\', 'n']
  else if character == '\r' then ['\\', 'r']
  else if character == '\t' then ['\\', 't']
  else if shows character then [character]
  else escapeCode character.toNat

/-- Characters between quotes. -/
def quoteChars (shows : Char → Bool) (characters : List Char) : List Char :=
  let quote := quoteFor characters
  quote :: characters.flatMap (escapeChar quote shows) ++ [quote]

/-- A text between quotes. -/
def text (content : String) : String :=
  String.ofList (quoteChars Printable.isPrintable content.toList)

/-- A byte string between quotes. -/
def bytes (content : Bytes) : String :=
  let shows := fun (character : Char) => 0x20 ≤ character.toNat && character.toNat < 0x7F
  String.ofList ('b' :: quoteChars shows (content.map fun byte => Char.ofNat byte.toNat))

end Septet.Quoted
