import Septet.Options.Basic
import Septet.Text.Utf8

/-!
# Arguments for opening a database

What a database is told when it is opened: most knobs under the names that it
has for them.  The cache is mentioned only when its size is positive and the
comparator only when there is one, together with its name: the name that it has
been given, or else the name of the function that it is, as UTF-8 bytes when it
is a text.
-/

namespace Septet.Options

set_option autoImplicit false

/-- The knobs that are passed on as they are, with the names that the database has for them. -/
def plainArguments : List (String × FreeKnob) :=
  [("create_if_missing", .createIfMissing), ("error_if_exists", .errorIfExists),
    ("paranoid_checks", .paranoidChecks), ("write_buffer_size", .writeBufferSize),
    ("max_open_files", .maxOpenFiles), ("block_size", .blockSize),
    ("block_restart_interval", .blockRestartInterval), ("max_file_size", .maxFileSize),
    ("bloom_filter_bits", .bitsPerKey)]

/-- The compression as the database wants it. -/
def compressionArgument : Compression → Value
  | .snappy => .text "snappy"
  | .none => .null

def comparatorName : Value → Except OptionError Value
  | .comparator function name =>
      match name.filter Value.isTruthy, function with
      | some given, _ => .ok given
      | none, some function => .ok (.text function)
      | none, none => .error (.nameless "Comparator")
  | .compression compression => .ok (.text compression.symbol)
  | .logger logger => .ok (.text logger.name)
  | other => .error (.nameless other.kind)

/-- A name as bytes when it is a text, and as it is when it is not. -/
def nameArgument : Value → Value
  | .text content => .bytes (Utf8.encode content)
  | other => other

/-- The argument for the cache, if it is mentioned. -/
def cacheArguments (size : Value) : Except OptionError Table :=
  match size.number? with
  | none => .error (.notComparable ">" size.kind)
  | some number => .ok (if number.greaterThan 0 then [("lru_cache_size", size)] else [])

/-- The arguments for the comparator, if it is mentioned. -/
def comparatorArguments : Value → Except OptionError Table
  | .null => .ok []
  | comparator => do
      let name ← comparatorName comparator
      .ok [("comparator", comparator), ("comparator_name", nameArgument name)]

/-- What a database is told when it is opened. -/
def databaseArguments (options : Options) : Except OptionError Table := do
  let plain := plainArguments.map fun (name, knob) => (name, options.free knob)
  let cache ← cacheArguments (options.free .cacheSize)
  let comparator ← comparatorArguments (options.free .comparator)
  .ok (plain ++ ("compression", compressionArgument options.compression) :: cache ++ comparator)

end Septet.Options
