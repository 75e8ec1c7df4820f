import Septet.Settings.Document
import Septet.Store.Basic

/-!
# Stores with settings

The settings of a store are in a file beside its database.  A missing file stands
for settings without entries.  A store that is made without options takes those that
its settings give.
-/

namespace Septet

set_option autoImplicit false

/-- Why a store has no usable settings. -/
inductive SetupError where
  /-- The file cannot be looked at or read. -/
  | file (cause : FileError)
  /-- The file holds no settings. -/
  | settings (cause : SettingsError)
  /-- A knob cannot be set as the settings say. -/
  | option (cause : OptionError)
  deriving Repr

def SetupError.message : SetupError → String
  | file cause => cause.message
  | settings cause => cause.message
  | option cause => cause.message

namespace Store

/-- The settings of the store with a path. -/
def loadSettings (files : FileSystem) (path : Path) : Except SetupError Settings := do
  match ← (files.find (settingsPath path)).mapError .file with
  | none => .ok {}
  | some _ =>
      let bytes ← (files.read (settingsPath path)).mapError .file
      (Settings.ofBytes bytes).mapError .settings

/-- The store with a path and the options that its settings give. -/
def ofSettings (files : FileSystem) (path : Path) : Except SetupError Store := do
  let settings ← loadSettings files path
  let options ← (Options.ofSettings settings).mapError .option
  .ok (ofOptions path options)

end Store

end Septet
