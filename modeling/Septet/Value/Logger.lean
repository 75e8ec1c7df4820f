/-!
# Loggers

A logger is told messages of different weight.  It is known by its name, and what
shows it tells its level besides; which messages are kept is decided where they are
logged.  The logger of one name is the root of all others and is a kind of its own.

A logger is below another one if its name is the other name, a dot and whatever else.
A level that is given to a logger holds for those below it too.
-/

namespace Septet

set_option autoImplicit false

/-! ## Levels -/

/-- The weight of a message. -/
inductive Level where
  | debug
  | info
  | warning
  | error
  | critical
  deriving DecidableEq, Repr

namespace Level

/-- The levels from the lightest to the heaviest. -/
def all : List Level := [debug, info, warning, error, critical]

/-- The name of a level. -/
def name : Level → String
  | debug => "DEBUG"
  | info => "INFO"
  | warning => "WARNING"
  | error => "ERROR"
  | critical => "CRITICAL"

/-- How heavy a level is. -/
def weight : Level → Nat
  | debug => 10
  | info => 20
  | warning => 30
  | error => 40
  | critical => 50

/-- The level of a name. -/
def ofName? (name : String) : Option Level :=
  all.find? fun level => level.name == name

/-- What a logger is asked for to tell it a message of a level. -/
def method : Level → String
  | debug => "debug"
  | info => "info"
  | warning => "warning"
  | error => "error"
  | critical => "critical"

end Level

/-! ## Loggers -/

/-- What messages are told to. -/
structure Logger where
  name : String
  /-- The level that it shows. -/
  level : Level := .warning
  deriving DecidableEq, Repr

namespace Logger

/-- The name of the root of all loggers. -/
def rootName : String := "root"

/-- What the kind of a logger is called in error texts. -/
def kind (logger : Logger) : String :=
  if logger.name = rootName then "RootLogger" else "Logger"

/-- Whether the logger of a name is that of another name or below it. -/
def isWithin (name other : String) : Bool :=
  name == other || (other ++ ".").toList.isPrefixOf name.toList

/-- The logger of a name, when the loggers of some names take every message; the root of all
loggers has no name of its own. -/
def ofName (attentive : List String) (name : String) : Logger where
  name := if name.isEmpty then rootName else name
  level := if attentive.any (isWithin name) then .debug else .warning

/-- What shows a logger. -/
def literal (logger : Logger) : String :=
  "<" ++ logger.kind ++ " " ++ logger.name ++ " (" ++ logger.level.name ++ ")>"

end Logger

end Septet
