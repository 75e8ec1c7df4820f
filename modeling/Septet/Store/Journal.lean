import Septet.Value.Logger

/-!
# Journals

What a store does is told to a logger, as messages of different weight.  A journal
is the list of the messages in the order in which they were told.
-/

namespace Septet

set_option autoImplicit false

/-- A message that a logger was told. -/
structure Message where
  logger : String
  level : Level
  text : String
  deriving DecidableEq, Repr

/-- Messages in the order in which they were told. -/
abbrev Journal := List Message

end Septet
