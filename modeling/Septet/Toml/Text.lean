import Septet.Toml.Blank
import Septet.Text.Hex

/-!
# Texts in settings

A text is verbatim between apostrophes, and has escapes between quotation marks.
Both kinds stand on one line between single quotes, and may run over several
lines between triple quotes; a line end right behind the opening triple quotes
does not count, and up to two quotes right before the closing ones do.

An escape is a backslash with a letter, a quote, another backslash, or the letter
`u` or `U` with the number of a character in four or eight hexadecimal digits.
Between triple quotes a backslash at the end of a line takes that line end and
all blanks and line ends behind it away.
-/

namespace Septet.Toml

set_option autoImplicit false

/-! ## Verbatim texts -/

/-- What precedes the first place where the given characters stand, and what is behind them. -/
def splitAtFirst (mark : List Char) : List Char → Option (List Char × List Char)
  | [] => if mark.isEmpty then some ([], []) else none
  | character :: rest =>
      if mark.isPrefixOf (character :: rest) then some ([], (character :: rest).drop mark.length)
      else (splitAtFirst mark rest).map fun parts => (character :: parts.1, parts.2)

/-- Reads a verbatim content and the quotes that close it. -/
def readVerbatim (quotes : List Char) (forbidden : Char → Bool) : Reader (List Char) :=
  fun unread =>
    match splitAtFirst quotes unread with
    | none => .error ⟨.quoteMissing (String.ofList quotes), []⟩
    | some (content, rest) => do
        refuse forbidden content (quotes ++ rest)
        .ok (content, rest)

/-! ## Escapes -/

/-- The character that a backslash and a character stand for. -/
def escaped? : Char → Option Char
  | 'b' => some '\x08'
  | 't' => some '\t'
  | 'n' => some '\n'
  | 'f' => some '\x0c'
  | 'r' => some '\r'
  | '"' => some '"'
  | '\\' => some '\\'
  | _ => none

/-- The number that hexadecimal digits stand for. -/
def hexNumber? (digits : List Char) : Option Nat :=
  digits.foldl (fun total digit => do some (16 * (← total) + (← Hex.value? digit))) (some 0)

/-- Reads the character whose number is written in the given count of digits. -/
def readNumbered (count : Nat) : Reader Char := fun unread =>
  let digits := unread.take count
  let rest := unread.drop count
  if digits.length < count then .error ⟨.invalidNumber, unread⟩
  else
    match hexNumber? digits with
    | none => .error ⟨.invalidNumber, unread⟩
    | some code =>
        if code.isValidChar then .ok (Char.ofNat code, rest) else .error ⟨.noCharacter, rest⟩

/-- Reads an escape, of which the backslash has been read, as the character it stands for. -/
def readEscape : Reader Char := fun unread =>
  match unread with
  | 'u' :: rest => readNumbered 4 rest
  | 'U' :: rest => readNumbered 8 rest
  | [] => .error ⟨.invalidEscape, []⟩
  | letter :: rest =>
      match escaped? letter with
      | some character => .ok (character, rest)
      | none => .error ⟨.invalidEscape, rest⟩

/-- Reads the escape of a line end, or any other escape, as the characters it stands for. -/
def readEscapeInLines : Reader (List Char) := fun unread =>
  match unread with
  | '\n' :: rest => .ok ([], skipLines rest)
  | blank :: rest =>
      if isSpace blank then
        match skipSpaces rest with
        | [] => .ok ([], [])
        | '\n' :: behind => .ok ([], skipLines behind)
        | behind => .error ⟨.invalidEscape, behind⟩
      else do
        let (character, behind) ← readEscape unread
        .ok ([character], behind)
  | [] => .error ⟨.invalidEscape, []⟩

/-! ## Texts with escapes -/

/-- Reads a content with escapes and the quotation mark that closes it. -/
def readLine : Nat → Reader (List Char)
  | 0, unread => .error ⟨.textNotEnded, unread⟩
  | _ + 1, [] => .error ⟨.textNotEnded, []⟩
  | _ + 1, '"' :: rest => .ok ([], rest)
  | fuel + 1, '\\' :: rest => do
      let (character, behind) ← readEscape rest
      let (content, after) ← readLine fuel behind
      .ok (character :: content, after)
  | fuel + 1, character :: rest =>
      if isControl character then .error ⟨.illegalCharacter character, character :: rest⟩
      else do
        let (content, after) ← readLine fuel rest
        .ok (character :: content, after)

/-- Reads a content with escapes and the three quotation marks that close it. -/
def readLines : Nat → Reader (List Char)
  | 0, unread => .error ⟨.textNotEnded, unread⟩
  | _ + 1, [] => .error ⟨.textNotEnded, []⟩
  | _ + 1, '"' :: '"' :: '"' :: rest => .ok ([], rest)
  | fuel + 1, '\\' :: rest => do
      let (characters, behind) ← readEscapeInLines rest
      let (content, after) ← readLines fuel behind
      .ok (characters ++ content, after)
  | fuel + 1, character :: rest =>
      if isControlInLines character then .error ⟨.illegalCharacter character, character :: rest⟩
      else do
        let (content, after) ← readLines fuel rest
        .ok (character :: content, after)

/-! ## Texts -/

/-- What is left behind a line end that stands right here. -/
def skipLineEnd : List Char → List Char
  | '\n' :: rest => rest
  | unread => unread

/-- A content with up to two quotes that follow its closing quotes. -/
def withQuotes (quote : Char) (content unread : List Char) : List Char × List Char :=
  let extra := (unread.take 2).takeWhile (· == quote)
  (content ++ extra, unread.drop extra.length)

/-- Reads a text between single quotes, of which the opening one has been read. -/
def readShort (fuel : Nat) (quote : Char) : Reader String := fun unread => do
  let (content, rest) ←
    if quote = '"' then readLine fuel unread
    else readVerbatim [quote] isControl unread
  .ok (String.ofList content, rest)

/-- Reads a text between triple quotes, of which the opening ones have been read. -/
def readLong (fuel : Nat) (quote : Char) : Reader String := fun unread => do
  let start := skipLineEnd unread
  let (content, rest) ←
    if quote = '"' then readLines fuel start
    else readVerbatim [quote, quote, quote] isControlInLines start
  let (content, rest) := withQuotes quote content rest
  .ok (String.ofList content, rest)

/-- Reads a text whose first quote has been read. -/
def readText (fuel : Nat) (quote : Char) : Reader String := fun unread =>
  if [quote, quote].isPrefixOf unread then readLong fuel quote (unread.drop 2)
  else readShort fuel quote unread

end Septet.Toml
