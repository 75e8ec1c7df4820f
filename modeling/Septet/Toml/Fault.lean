import Septet.Text.Numeral
import Septet.Text.Quoted

/-!
# Faults of a settings document

A document is read from its first character on, and the first fault ends the
reading.  While a document is read, a place in it is told by the characters that
are still unread there.  Where a fault is reported, its place is a line and a
column, both counted from one, or the end of the document when nothing is left to
read; one fault, an integer with too many digits, has no place.

Reading that goes on and on is bounded by a count, the fuel.  It is counted once for
a document and handed on, greater than the number of unread characters at every
place, and every step reads one character at least; so it is never used up.
-/

namespace Septet.Toml

set_option autoImplicit false

/-- The names on the way to a value, outermost first. -/
abbrev Path := List String

/-- A path as it stands in the text of a fault. -/
def Path.literal : Path → String
  | [name] => "(" ++ Quoted.text name ++ ",)"
  | path => "(" ++ ", ".intercalate (path.map Quoted.text) ++ ")"

/-! ## Causes -/

/-- What can be wrong with a document. -/
inductive Cause where
  /-- A line begins with nothing that a statement begins with. -/
  | invalidStatement
  /-- Something stands behind a statement on its line. -/
  | lineNotEnded
  /-- No name begins where one has to. -/
  | invalidName
  /-- A name and its value are not joined by an equals sign. -/
  | equalsMissing
  /-- Nothing that begins here is a value. -/
  | invalidValue
  /-- A date, or the date of a moment, is not in the calendar. -/
  | invalidDate
  /-- The closing quotes of a verbatim text are missing. -/
  | quoteMissing (quotes : String)
  /-- The closing quotes of a text with escapes are missing. -/
  | textNotEnded
  /-- A control character stands in a comment or a verbatim text. -/
  | invalidCharacter (character : Char)
  /-- A control character stands in a text with escapes. -/
  | illegalCharacter (character : Char)
  /-- A backslash begins no escape. -/
  | invalidEscape
  /-- The number of a character is not written in hexadecimal digits. -/
  | invalidNumber
  /-- There is no character with the number. -/
  | noCharacter
  /-- A list is neither continued nor closed. -/
  | listNotEnded
  /-- A table on one line is neither continued nor closed. -/
  | tableNotEnded
  /-- The header of a table is not closed. -/
  | headerNotEnded
  /-- The header of a table in a list is not closed. -/
  | listHeaderNotEnded
  /-- A table on one line has two entries of one name. -/
  | repeatedName (name : String)
  /-- A table is declared by two headers. -/
  | repeatedTable (path : Path)
  /-- A list, or a table on one line, is extended from elsewhere. -/
  | closedTable (path : Path)
  /-- A table with a header is extended by a dotted name. -/
  | reopenedTable (path : Path)
  /-- A value, or what stands in its way, is already there. -/
  | valueInTheWay
  /-- An integer has more digits than the limit for numerals. -/
  | tooManyDigits (count : Nat)
  deriving DecidableEq, Repr

def Cause.text : Cause → String
  | invalidStatement => "Invalid statement"
  | lineNotEnded => "Expected newline or end of document after a statement"
  | invalidName => "Invalid initial character for a key part"
  | equalsMissing => "Expected '=' after a key in a key/value pair"
  | invalidValue => "Invalid value"
  | invalidDate => "Invalid date or datetime"
  | quoteMissing quotes => "Expected " ++ Quoted.text quotes
  | textNotEnded => "Unterminated string"
  | invalidCharacter character => "Found invalid character " ++ Quoted.text character.toString
  | illegalCharacter character => "Illegal character " ++ Quoted.text character.toString
  | invalidEscape => "Unescaped '\\' in a string"
  | invalidNumber => "Invalid hex value"
  | noCharacter => "Escaped character is not a Unicode scalar value"
  | listNotEnded => "Unclosed array"
  | tableNotEnded => "Unclosed inline table"
  | headerNotEnded => "Expected ']' at the end of a table declaration"
  | listHeaderNotEnded => "Expected ']]' at the end of an array declaration"
  | repeatedName name => "Duplicate inline table key " ++ Quoted.text name
  | repeatedTable path => "Cannot declare " ++ path.literal ++ " twice"
  | closedTable path => "Cannot mutate immutable namespace " ++ path.literal
  | reopenedTable path => "Cannot redefine namespace " ++ path.literal
  | valueInTheWay => "Cannot overwrite a value"
  | tooManyDigits count => Numeral.limitText (some count)

/-! ## Faults and places -/

/-- A cause, and what is unread where it was found. -/
structure Fault where
  cause : Cause
  unread : List Char
  deriving DecidableEq, Repr

/-- What reads something from the start of what is unread. -/
abbrev Reader (α : Type) := List Char → Except Fault (α × List Char)

/-- A place in a document. -/
inductive Place where
  /-- A character, by its line and its column. -/
  | character (line column : Nat)
  | ending
  deriving DecidableEq, Repr

def Place.text : Place → String
  | character line column => s!"line {line}, column {column}"
  | ending => "end of document"

/-- The place behind which the given characters, of which the last comes first, are read. -/
def Place.behind (earlier : List Char) : Place :=
  .character (earlier.count '\n' + 1) ((earlier.takeWhile (· != '\n')).length + 1)

/-- The place in a document where the given characters are unread. -/
def Place.ofUnread (document unread : List Char) : Place :=
  if unread.isEmpty then .ending
  else .behind (document.take (document.length - unread.length)).reverse

/-- A fault as it is reported. -/
structure Error where
  cause : Cause
  place : Place
  deriving DecidableEq, Repr

/-- The fault of a document, as it is reported. -/
def Fault.report (document : List Char) (fault : Fault) : Error where
  cause := fault.cause
  place := Place.ofUnread document fault.unread

def Error.message (error : Error) : String :=
  match error.cause with
  | .tooManyDigits _ => error.cause.text
  | _ => error.cause.text ++ " (at " ++ error.place.text ++ ")"

end Septet.Toml
