import Septet.Value.Basic

/-!
# Knobs

A database is opened with seventeen knobs.  Fourteen of them are free: they keep
whatever value they are given.  The other three keep a value of a kind of their
own: the compression, and the two sizes that are compared with integers.

All knobs but the comparator and the logger can be given in settings.
-/

namespace Septet

set_option autoImplicit false

/-- The knobs that keep whatever they are given. -/
inductive FreeKnob where
  | createIfMissing
  | errorIfExists
  | writeBufferSize
  | maxOpenFiles
  | blockRestartInterval
  | blockSize
  | verifyChecksums
  | paranoidChecks
  | comparator
  | logger
  | cacheSize
  | bitsPerKey
  | reuseLogs
  | maxFileSize
  deriving DecidableEq, Repr

namespace FreeKnob

def all : List FreeKnob :=
  [createIfMissing, errorIfExists, writeBufferSize, maxOpenFiles, blockRestartInterval, blockSize,
    verifyChecksums, paranoidChecks, comparator, logger, cacheSize, bitsPerKey, reuseLogs,
    maxFileSize]

def name : FreeKnob → String
  | createIfMissing => "create_if_missing"
  | errorIfExists => "error_if_exists"
  | writeBufferSize => "write_buffer_size"
  | maxOpenFiles => "max_open_files"
  | blockRestartInterval => "block_restart_interval"
  | blockSize => "block_size"
  | verifyChecksums => "verify_checksums"
  | paranoidChecks => "paranoid_checks"
  | comparator => "comparator"
  | logger => "logger"
  | cacheSize => "cache_size"
  | bitsPerKey => "bits_per_key"
  | reuseLogs => "reuse_logs"
  | maxFileSize => "max_file_size"

/-- What a knob holds before it is set. -/
def default : FreeKnob → Value
  | createIfMissing => .bool true
  | errorIfExists => .bool false
  | writeBufferSize => .int 4194304
  | maxOpenFiles => .int 1000
  | blockRestartInterval => .int 16
  | blockSize => .int 4096
  | verifyChecksums => .bool true
  | paranoidChecks => .bool false
  | comparator => .null
  | logger => .null
  | cacheSize => .int 0
  | bitsPerKey => .int 0
  | reuseLogs => .bool false
  | maxFileSize => .int 2097152

end FreeKnob

/-- The knobs that a database is opened with. -/
inductive Knob where
  | free (knob : FreeKnob)
  | compression
  | maxBatchSize
  | maxManifestSize
  deriving DecidableEq, Repr

namespace Knob

def all : List Knob :=
  FreeKnob.all.map free ++ [compression, maxBatchSize, maxManifestSize]

def name : Knob → String
  | free knob => knob.name
  | compression => "compression_type"
  | maxBatchSize => "max_batch_size"
  | maxManifestSize => "max_manifest_size"

def ofName? (name : String) : Option Knob :=
  all.find? fun knob => knob.name == name

/-- Whether a knob can be given in settings. -/
def isSettable : Knob → Bool
  | free .comparator => false
  | free .logger => false
  | _ => true

/-- The knob that an entry of the settings sets, if it sets one. -/
def ofSetting? (name : String) : Option Knob :=
  (ofName? name).filter isSettable

end Knob

end Septet
