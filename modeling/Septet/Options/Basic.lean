import Septet.Options.Knob
import Septet.Settings.Basic
import Septet.Value.Text

/-!
# Options

Options hold a value for every knob.  Setting a knob changes that knob alone,
with one exception: a negative manifest size lifts the limit on batches too.
Negative sizes have one form each, the unlimited batch size and the manifest size
minus one.  A value that a knob cannot hold changes nothing.

Options are read from the table `options` of the settings, entry by entry in the
order of the table, up to the first entry that cannot be set; entries that name
no settable knob do not count, and without such a table every knob keeps its
default.
-/

namespace Septet

set_option autoImplicit false

/-! ## Causes of failure -/

/-- Why a knob could not be set or used. -/
inductive OptionError where
  /-- The compression knob was given nothing. -/
  | compressionMissing
  /-- A value is no compression and no name of one. -/
  | notCompression (value : Value)
  /-- A value of a kind that cannot be compared with integers was compared with one. -/
  | notComparable (relation : String) (kind : String)
  /-- A value of a kind that has no name was used as a comparator. -/
  | nameless (kind : String)
  deriving Repr

/-- The text of a failure; a value without a literal is not shown. -/
def OptionError.message : OptionError → String
  | compressionMissing => "The compression_type argument cannot be None"
  | notCompression value =>
      match value.literal? with
      | some literal => literal ++ " is not a valid CompressionType"
      | none => Numeral.limitText none
  | notComparable relation kind =>
      s!"'{relation}' not supported between instances of '{kind}' and 'int'"
  | nameless kind => s!"'{kind}' object has no attribute '__name__'"

/-! ## Options -/

/-- A value for every knob. -/
structure Options where
  free : FreeKnob → Value
  /-- How blocks are compressed. -/
  compression : Compression
  /-- The greatest number of records written at once. -/
  maxBatchSize : Number
  /-- The greatest size of a manifest. -/
  maxManifestSize : Number

namespace Options

/-- The batch size that stands for no limit. -/
def unlimitedBatchSize : Int := 2147483647

/-- What the knobs hold before any is set. -/
def default : Options where
  free := FreeKnob.default
  compression := .snappy
  maxBatchSize := .int 52000
  maxManifestSize := .int 128

instance : Inhabited Options := ⟨default⟩

def get (options : Options) : Knob → Value
  | .free knob => options.free knob
  | .compression => .compression options.compression
  | .maxBatchSize => .ofNumber options.maxBatchSize
  | .maxManifestSize => .ofNumber options.maxManifestSize

/-! ## Setting knobs -/

/-- The compression that a value is or names. -/
def readCompression (value : Value) : Except OptionError Compression :=
  match value with
  | .null => .error .compressionMissing
  | .compression compression => .ok compression
  | .text name =>
      match Compression.ofName? name with
      | some compression => .ok compression
      | none => .error (.notCompression value)
  | _ => .error (.notCompression value)

/-- The number that a size knob is given. -/
def readSize (value : Value) : Except OptionError Number :=
  match value.number? with
  | some number => .ok number
  | none => .error (.notComparable "<" value.kind)

/-- The options with another value for a free knob. -/
def setFree (options : Options) (knob : FreeKnob) (value : Value) : Options :=
  { options with free := fun other => if other = knob then value else options.free other }

/-- The options with another batch size; a negative one lifts the limit. -/
def setBatchSize (options : Options) (size : Number) : Options :=
  { options with maxBatchSize := if size.lessThan 0 then .int unlimitedBatchSize else size }

/-- The options with another manifest size; a negative one lifts the limit on batches too. -/
def setManifestSize (options : Options) (size : Number) : Options :=
  if size.lessThan 0 then
    { options with maxManifestSize := .int (-1), maxBatchSize := .int unlimitedBatchSize }
  else { options with maxManifestSize := size }

/-- The options with another value for a knob. -/
def set (options : Options) (knob : Knob) (value : Value) : Except OptionError Options :=
  match knob with
  | .free knob => .ok (options.setFree knob value)
  | .compression => (readCompression value).map fun compression => { options with compression }
  | .maxBatchSize => (readSize value).map options.setBatchSize
  | .maxManifestSize => (readSize value).map options.setManifestSize

/-! ## Options from settings -/

/-- The key of the table of options in the settings. -/
def settingsKey : String := "options"

/-- The options after the entries of a table have been set in order. -/
def setAll (options : Options) : Table → Except OptionError Options
  | [] => .ok options
  | (name, value) :: rest =>
      match Knob.ofSetting? name with
      | none => options.setAll rest
      | some knob => do
          let changed ← options.set knob value
          changed.setAll rest

def ofSettings (settings : Settings) : Except OptionError Options :=
  match settings.get settingsKey (.table []) with
  | .table entries => default.setAll entries
  | _ => .ok default

end Options

end Septet
