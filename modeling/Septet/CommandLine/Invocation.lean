import Septet.CommandLine.Reading
import Septet.Quantity.Width
import Septet.Store.Journal

/-!
# Invocations

A command line names a command, which has a grammar of its own for the strings behind
it.  Before the command stand the flags that all commands share: where the store is,
and where and how much is logged.

A bare flag is not the same as an absent one: it names no path for the store, and no
width to read quantities with, although quantities are written with 64 bits then.
-/

namespace Septet.CommandLine

set_option autoImplicit false

/-! ## Commands -/

/-- What is to be done. -/
inductive Command where
  | encode (width : Width) (values : List Int)
  /-- There is no width if its flag is bare. -/
  | decode (width : Option Width) (digits : String)
  /-- There is no width if its flag is bare. -/
  | dump (width : Option Width) (file : String)
  | put (name : String) (fields : List String)
  | get (name : String)
  | delete (name : String)
  | inspect
  deriving DecidableEq, Repr

/-- The name of a command. -/
inductive CommandName where
  | encode
  | decode
  | dump
  | put
  | get
  | delete
  | inspect
  deriving DecidableEq, Repr

namespace CommandName

/-- The names of all commands. -/
def all : List CommandName := [encode, decode, dump, put, get, delete, inspect]

/-- The text of a name. -/
def text : CommandName → String
  | encode => "encode"
  | decode => "decode"
  | dump => "dump"
  | put => "put"
  | get => "get"
  | delete => "delete"
  | inspect => "inspect"

/-- The name that a text is. -/
def ofText? (text : String) : Option CommandName :=
  all.find? fun name => name.text == text

end CommandName

/-! ## Grammars -/

/-- The width that a text stands for. -/
def widthOf? (text : String) : Option Width :=
  (Numeral.read text).bind fun bits => (Width.ofBits bits).toOption

/-- The flag for the width. -/
def widthFlag : Flag where
  name := "--width"
  accepts := fun text => (widthOf? text).isSome

/-- The flag for the path of the store. -/
def storeFlag : Flag where
  name := "--store"
  accepts := fun _ => true

/-- The flag for the file with the log. -/
def logFileFlag : Flag where
  name := "--log-file"
  accepts := fun _ => true

/-- The flag for the least level of what is logged. -/
def logLevelFlag : Flag where
  name := "--log-level"
  accepts := fun text => (Level.ofName? text).isSome

/-- A slot for words of any kind. -/
def wordSlot (arity : Arity) : Slot where
  arity
  accepts := fun _ => true

/-- A slot for integers. -/
def integerSlot : Slot where
  arity := .oneOrMore
  accepts := fun text => (Numeral.read text).isSome

/-- A slot for the name of a command and what belongs to the command. -/
def commandSlot : Slot where
  arity := .everything
  accepts := fun text => (CommandName.ofText? text).isSome

/-- The grammar of the whole. -/
def sharedGrammar : Grammar where
  flags := [storeFlag, logFileFlag, logLevelFlag]
  slots := [commandSlot]

/-- The grammar of what belongs to a command. -/
def CommandName.grammar : CommandName → Grammar
  | encode => { flags := [widthFlag], slots := [integerSlot] }
  | decode => { flags := [widthFlag], slots := [wordSlot .one] }
  | dump => { flags := [widthFlag], slots := [wordSlot .one] }
  | put => { flags := [], slots := [wordSlot .one, wordSlot .any] }
  | get => { flags := [], slots := [wordSlot .one] }
  | delete => { flags := [], slots := [wordSlot .one] }
  | inspect => { flags := [], slots := [] }

/-! ## Reading -/

/-- The width that arguments ask for; 64 bits if its flag is absent. -/
def Arguments.width? (arguments : Arguments) : Option Width :=
  match (arguments.occurrence widthFlag.name).bind widthOf? with
  | .absent => some .bits64
  | .bare => none
  | .given width => some width

/-- The command with a name and arguments. -/
def Command.ofArguments (name : CommandName) (arguments : Arguments) : Except Stop Command :=
  match name, arguments.words with
  | .encode, [values] => .ok (.encode (arguments.width?.getD .bits64) (values.filterMap Numeral.read))
  | .decode, [[digits]] => .ok (.decode arguments.width? digits)
  | .dump, [[file]] => .ok (.dump arguments.width? file)
  | .put, [[name], fields] => .ok (.put name fields)
  | .get, [[name]] => .ok (.get name)
  | .delete, [[name]] => .ok (.delete name)
  | .inspect, [] => .ok .inspect
  | _, _ => .error .misuse

/-- A command with what all commands share. -/
structure Invocation where
  storePath : Occurrence String
  /-- The path of the file with the log. -/
  logFile : Option String
  /-- The least level of what is logged. -/
  logLevel : Option Level
  command : Command
  deriving DecidableEq, Repr

/-- Reads the strings of a command line; none of them may be left over. -/
def Invocation.read (strings : List String) : Except Stop Invocation := do
  let shared ← Arguments.read sharedGrammar strings
  match shared.words with
  | [word :: rest] =>
      match CommandName.ofText? word with
      | none => .error .misuse
      | some name => do
          let own ← Arguments.read name.grammar rest
          if !(shared.leftOver ++ own.leftOver).isEmpty then .error .misuse
          else
            .ok {
              storePath := shared.occurrence storeFlag.name
              logFile := (shared.occurrence logFileFlag.name).value?
              logLevel := ((shared.occurrence logLevelFlag.name).bind Level.ofName?).value?
              command := ← Command.ofArguments name own }
  | _ => .error .misuse

end Septet.CommandLine
