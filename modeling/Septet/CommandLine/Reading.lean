import Septet.CommandLine.Arguments

/-!
# Reading arguments

Slots and flags take their strings in turn.  Whenever words stand next, the slots
that are left take what they can, one after the other; then the next flag takes its
value.  Within the words of a slot the first pair of hyphens does not count.

The first string that its taker does not accept ends the reading, and so does the
first flag for help; what stands behind it is not looked at any more.  At the end,
every slot has to have its words.
-/

namespace Septet.CommandLine

set_option autoImplicit false

/-! ## Slots -/

/-- Splits off what is no flag. -/
def splitWords (tokens : List Token) : List Token × List Token :=
  tokens.span fun token => !token.isFlag

/-- Splits off what divides. -/
def splitDividers (tokens : List Token) : List Token × List Token :=
  tokens.span Token.isDivider

/-- Splits off what a slot takes behind its first word. -/
def Arity.splitFurther : Arity → List Token → List Token × List Token
  | .one, tokens => splitDividers tokens
  | .oneOrMore, tokens => splitWords tokens
  | .any, tokens => splitWords tokens
  | .everything, tokens => (tokens, [])

/-- Splits off the strings that a slot takes, if there are any that it can take. -/
def Arity.take? (arity : Arity) (tokens : List Token) : Option (List Token × List Token) :=
  if arity = .any then some (splitWords tokens)
  else
    match splitDividers tokens with
    | (front, .word text :: behind) =>
        let (more, rest) := arity.splitFurther behind
        some (front ++ .word text :: more, rest)
    | _ => none

/-- The words of a slot among the strings that it has taken. -/
def Slot.words (slot : Slot) (taken : List Token) : Except Stop (List String) :=
  let texts := taken.map Token.text
  let words := if slot.arity = .everything then texts else texts.erase "--"
  let asked := if slot.arity = .everything then words.take 1 else words
  if asked.all slot.accepts then .ok words else .error .misuse

/-- What slots have taken. -/
structure Filling where
  /-- The words of the slots that have taken some. -/
  words : List (List String)
  /-- The slots that are left. -/
  slots : List Slot
  /-- What is left of the strings. -/
  rest : List Token

/-- Lets slots take what they can, up to the first that can take nothing. -/
def fill : List Slot → List Token → Except Stop Filling
  | [], tokens => .ok { words := [], slots := [], rest := tokens }
  | slot :: slots, tokens =>
      match slot.arity.take? tokens with
      | none => .ok { words := [], slots := slot :: slots, rest := tokens }
      | some (taken, rest) => do
          let words ← slot.words taken
          let filling ← fill slots rest
          .ok { filling with words := words :: filling.words }

/-! ## Flags -/

/-- How a flag occurs among the strings. -/
inductive Occurrence (α : Type) where
  /-- It does not occur. -/
  | absent
  /-- It occurs without a value. -/
  | bare
  /-- It occurs with a value. -/
  | given (value : α)
  deriving DecidableEq, Repr

namespace Occurrence

/-- The value, if there is one. -/
def value? {α : Type} : Occurrence α → Option α
  | given value => some value
  | _ => none

/-- The occurrence with what the value stands for; a value that stands for nothing is none. -/
def bind {α β : Type} (read? : α → Option β) : Occurrence α → Occurrence β
  | absent => absent
  | bare => bare
  | given value => (read? value).elim bare given

end Occurrence

/-! ## Reading -/

/-- What has been read. -/
structure Arguments where
  /-- The flags that occur, with their values, the latest one first. -/
  flags : List (String × Option String) := []
  /-- The words of each slot. -/
  words : List (List String) := []
  /-- The slots that have no words yet. -/
  slots : List Slot
  /-- What nobody takes. -/
  leftOver : List String := []

namespace Arguments

/-- How a flag occurs; its latest occurrence counts. -/
def occurrence (arguments : Arguments) (name : String) : Occurrence String :=
  match arguments.flags.lookup name with
  | none => .absent
  | some none => .bare
  | some (some value) => .given value

/-- Lets the slots take what they can of some strings; what is left of the strings. -/
def fillFrom (arguments : Arguments) (tokens : List Token) :
    Except Stop (Arguments × List Token) := do
  let filling ← fill arguments.slots tokens
  .ok ({ arguments with words := arguments.words ++ filling.words, slots := filling.slots },
    filling.rest)

/-- Leaves strings over. -/
def leave (arguments : Arguments) (tokens : List Token) : Arguments :=
  { arguments with leftOver := arguments.leftOver ++ tokens.map Token.text }

/-- Lets a flag occur without a value. -/
def leaveBare (arguments : Arguments) (name : String) : Arguments :=
  { arguments with flags := (name, none) :: arguments.flags }

/-- Gives a flag its value. -/
def give (arguments : Arguments) (grammar : Grammar) (name value : String) :
    Except Stop Arguments :=
  let accepts := (grammar.flags.find? fun flag => flag.name == name).elim false fun flag =>
    flag.accepts value
  if accepts then .ok { arguments with flags := (name, some value) :: arguments.flags }
  else .error .misuse

/-- Lets a flag take its value; what is left of the strings behind it. -/
def useFlag (arguments : Arguments) (grammar : Grammar) (text : String) (meaning : Meaning)
    (behind : List Token) : Except Stop (Arguments × List Token) :=
  match meaning, behind with
  | .help, _ => .error .help
  | .misuse, _ => .error .misuse
  | .unknown, _ => .ok (arguments.leave [.flag text meaning], behind)
  | .named name (some value), _ =>
      if value = "--" then .ok (arguments.leaveBare name, behind)
      else do .ok (← arguments.give grammar name value, behind)
  | .named name none, .word value :: rest => do .ok (← arguments.give grammar name value, rest)
  | .named _ none, _ => .error .misuse

/-- Reads all strings, in no more than `fuel` turns. -/
def readAll (grammar : Grammar) : Nat → Arguments → List Token → Except Stop Arguments
  | 0, arguments, tokens => .ok (arguments.leave tokens)
  | fuel + 1, arguments, tokens =>
      if !tokens.any Token.isFlag then do
        let (arguments, rest) ← arguments.fillFrom tokens
        .ok (arguments.leave rest)
      else
        match tokens with
        | .flag text meaning :: behind => do
            let (arguments, rest) ← arguments.useFlag grammar text meaning behind
            arguments.readAll grammar fuel rest
        | _ => do
            let (arguments, rest) ← arguments.fillFrom tokens
            if rest.length < tokens.length then arguments.readAll grammar fuel rest
            else
              let (words, flags) := splitWords rest
              (arguments.leave words).readAll grammar fuel flags

/-- Reads the strings of a command line. -/
def read (grammar : Grammar) (strings : List String) : Except Stop Arguments := do
  let tokens ← classifyAll grammar strings
  let arguments ← readAll grammar (tokens.length + 1) { slots := grammar.slots } tokens
  if arguments.slots.isEmpty then .ok arguments else .error .misuse

end Arguments

end Septet.CommandLine
