import Septet.Toml.Text

/-!
# Names in settings

A name is a word of letters, digits, hyphens and low lines, all of ASCII, or a
text on one line.  Names joined by dots lead from table to table; blanks may
stand around the dots.
-/

namespace Septet.Toml

set_option autoImplicit false

/-- Whether a character can stand in a name without quotes. -/
def isWordCharacter (character : Char) : Bool :=
  character.isAlphanum || character == '-' || character == '_'

/-- Whether a name can begin with a character. -/
def beginsName (character : Char) : Bool :=
  isWordCharacter character || character == '"' || character == '\''

def readName (fuel : Nat) : Reader String := fun unread =>
  match unread with
  | [] => .error ⟨.invalidName, []⟩
  | first :: rest =>
      if isWordCharacter first then
        .ok (String.ofList (unread.takeWhile isWordCharacter), unread.dropWhile isWordCharacter)
      else if beginsName first then readShort fuel first rest
      else .error ⟨.invalidName, unread⟩

/-- Reads a path: names joined by dots, and the blanks behind each. -/
def readPath : Nat → Reader Path
  | 0, unread => .error ⟨.invalidName, unread⟩
  | fuel + 1, unread => do
      let (name, rest) ← readName fuel unread
      match skipSpaces rest with
      | '.' :: behind => do
          let (path, after) ← readPath fuel (skipSpaces behind)
          .ok (name :: path, after)
      | after => .ok ([name], after)

end Septet.Toml
