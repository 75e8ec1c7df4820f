import Septet.Toml.Fault

/-!
# Blanks and comments

Spaces and tabs separate what stands on a line.  A comment begins with a number
sign and runs to the end of its line; of the control characters it may hold the
tab alone.  Within a list, line ends and comments count as blanks too.
-/

namespace Septet.Toml

set_option autoImplicit false

/-! ## Classes of characters -/

/-- Whether a character is a space or a tab. -/
def isSpace (character : Char) : Bool :=
  character == ' ' || character == '\t'

/-- Whether a character is a space, a tab or a line end. -/
def isSpaceOrLineEnd (character : Char) : Bool :=
  isSpace character || character == '\n'

/-- Whether a character is a control character other than the tab. -/
def isControl (character : Char) : Bool :=
  (character.toNat < 32 && character != '\t') || character.toNat == 127

/-- Whether a character is a control character other than the tab and the line end. -/
def isControlInLines (character : Char) : Bool :=
  isControl character && character != '\n'

/-! ## Skipping -/

/-- What is left behind spaces and tabs. -/
def skipSpaces (unread : List Char) : List Char :=
  unread.dropWhile isSpace

/-- What is left behind spaces, tabs and line ends. -/
def skipLines (unread : List Char) : List Char :=
  unread.dropWhile isSpaceOrLineEnd

/-- Refuses the first forbidden character of a content that `rest` follows. -/
def refuse (forbidden : Char → Bool) (content rest : List Char) : Except Fault Unit :=
  match content.dropWhile fun character => !forbidden character with
  | [] => .ok ()
  | character :: after => .error ⟨.invalidCharacter character, character :: after ++ rest⟩

/-- What is left behind a comment, if one begins here. -/
def skipComment (unread : List Char) : Except Fault (List Char) :=
  match unread with
  | '#' :: behind => do
      let rest := behind.dropWhile (· != '\n')
      refuse isControl (behind.takeWhile (· != '\n')) rest
      .ok rest
  | _ => .ok unread

/-- What is left behind blanks, line ends and comments, but no more comments than `fuel`. -/
def skipBlanks : Nat → List Char → Except Fault (List Char)
  | 0, unread => .ok unread
  | fuel + 1, unread =>
      match skipLines unread with
      | '#' :: behind => do
          skipBlanks fuel (← skipComment ('#' :: behind))
      | rest => .ok rest

end Septet.Toml
