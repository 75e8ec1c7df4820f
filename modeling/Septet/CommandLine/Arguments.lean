import Septet.Text.Numeral

/-!
# Arguments

The strings of a command line are read by a grammar of flags and slots.  A flag has
a long name and takes one value, which is the string behind it or stands behind an
equals sign; an unambiguous beginning of its name will do.  Two hyphens behind an
equals sign are no value, and leave the flag bare.  A slot takes words, in the order
in which the slots are given, as many as it can.

Every string is classed before any is used.  A string that begins with a hyphen is a
flag, known or not, unless it is a hyphen alone, looks like a negative number, or has
a space in it and is no known flag.  A string of two hyphens divides: all strings
behind it are words.

Words and flags may stand in any order, but a slot takes only words that stand
together.  What no slot takes is left over, and so is an unknown flag.
-/

namespace Septet.CommandLine

set_option autoImplicit false

/-! ## Grammars -/

/-- Why the strings of a command line are not used. -/
inductive Stop where
  /-- They ask for help. -/
  | help
  /-- They do not follow the grammar. -/
  | misuse
  deriving DecidableEq, Repr

/-- How many words a slot takes. -/
inductive Arity where
  | one
  | oneOrMore
  | any
  /-- One word and everything behind it, flags too. -/
  | everything
  deriving DecidableEq, Repr

/-- A flag with a value. -/
structure Flag where
  /-- The name, with two hyphens. -/
  name : String
  /-- Which values it takes. -/
  accepts : String → Bool

/-- A place for words. -/
structure Slot where
  arity : Arity
  /-- Which words it takes; of everything, only the first word is asked about. -/
  accepts : String → Bool

/-- The flags and the slots of a command line; the flags for help come by themselves. -/
structure Grammar where
  flags : List Flag
  slots : List Slot

namespace Grammar

/-- The long flag for help. -/
def helpName : String := "--help"

/-- The names of all long flags. -/
def names (grammar : Grammar) : List String :=
  helpName :: grammar.flags.map Flag.name

end Grammar

/-! ## Classes of strings -/

/-- What a flag means. -/
inductive Meaning where
  | help
  /-- It is given a value, and takes none. -/
  | misuse
  | unknown
  /-- It has a name, and a value behind an equals sign, if there is one. -/
  | named (name : String) (given : Option String)
  deriving DecidableEq, Repr

/-- A string with its class. -/
inductive Token where
  | word (text : String)
  | divider
  | flag (text : String) (meaning : Meaning)
  deriving DecidableEq, Repr

namespace Token

/-- The string. -/
def text : Token → String
  | word text => text
  | divider => "--"
  | flag text _ => text

/-- Whether a string is a flag. -/
def isFlag : Token → Bool
  | flag _ _ => true
  | _ => false

/-- Whether a string divides. -/
def isDivider : Token → Bool
  | divider => true
  | _ => false

end Token

/-- Whether characters look like a negative number, maybe with a line end behind it. -/
def looksNegative : List Char → Bool
  | '-' :: rest =>
      let body := if rest.getLast? = some '\n' then rest.dropLast else rest
      match body.dropWhile Numeral.isDigit with
      | [] => !body.isEmpty
      | '.' :: fraction => !fraction.isEmpty && fraction.all Numeral.isDigit
      | _ => false
  | _ => false

/-- What the short flag for help means with further short flags behind it. -/
def helpMeaning (further : List Char) : Meaning :=
  if further.all (· == 'h') then .help else .misuse

/-- What the short flag for help means with the characters behind it. -/
def shortMeaning : List Char → Meaning
  | ['='] => .misuse
  | '=' :: further => helpMeaning further
  | further => helpMeaning further

/-- What a name means with the value that it is given. -/
def namedMeaning (name : String) (given : Option String) : Meaning :=
  if name = Grammar.helpName then if given.isSome then .misuse else .help
  else .named name given

/-- What a long flag means, by its name or by the beginning of one name only. -/
def longMeaning (grammar : Grammar) (name : String) (given : Option String) :
    Except Stop Meaning :=
  if grammar.names.contains name then .ok (namedMeaning name given)
  else
    match grammar.names.filter fun other => name.toList.isPrefixOf other.toList with
    | [] => .ok .unknown
    | [other] => .ok (namedMeaning other given)
    | _ => .error .misuse

/-- What a string means that begins with a hyphen and goes on. -/
def meaningOf (grammar : Grammar) (characters : List Char) : Except Stop Meaning :=
  match characters with
  | '-' :: '-' :: _ =>
      let name := String.ofList (characters.takeWhile (· != '='))
      match characters.dropWhile (· != '=') with
      | [] => longMeaning grammar name none
      | _ :: given => longMeaning grammar name (some (String.ofList given))
  | '-' :: 'h' :: rest => .ok (shortMeaning rest)
  | _ => .ok .unknown

/-- The class of a string before any divider. -/
def classify (grammar : Grammar) (text : String) : Except Stop Token :=
  match text.toList with
  | '-' :: next :: rest => do
      match ← meaningOf grammar ('-' :: next :: rest) with
      | .unknown =>
          if looksNegative ('-' :: next :: rest) || (next :: rest).contains ' ' then
            .ok (.word text)
          else .ok (.flag text .unknown)
      | meaning => .ok (.flag text meaning)
  | _ => .ok (.word text)

/-- The classes of all strings. -/
def classifyAll (grammar : Grammar) : List String → Except Stop (List Token)
  | [] => .ok []
  | text :: rest =>
      if text = "--" then .ok (.divider :: rest.map .word)
      else do
        let token ← classify grammar text
        .ok (token :: (← classifyAll grammar rest))

end Septet.CommandLine
