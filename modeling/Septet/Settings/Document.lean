import Septet.Settings.Basic
import Septet.Text.Utf8
import Septet.Toml.Document

/-!
# Settings from documents

The settings of a store are kept in a document, which is the UTF-8 form of a text.
Bytes that are no text are refused before anything else.
-/

namespace Septet

set_option autoImplicit false

/-- Why bytes hold no settings. -/
inductive SettingsError where
  | notText (cause : Utf8.Error)
  | notDocument (cause : Toml.Error)
  deriving DecidableEq, Repr

def SettingsError.message : SettingsError → String
  | notText cause => cause.message
  | notDocument cause => cause.message

namespace Settings

/-- The settings in a document. -/
def ofText (text : String) : Except SettingsError Settings :=
  match Toml.read text with
  | .ok table => .ok { table }
  | .error cause => .error (.notDocument cause)

/-- The settings in the bytes of a document. -/
def ofBytes (bytes : Bytes) : Except SettingsError Settings :=
  match Utf8.decode bytes with
  | .ok text => ofText text
  | .error cause => .error (.notText cause)

end Settings

end Septet
