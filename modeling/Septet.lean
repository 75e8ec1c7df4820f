import Septet.Bytes
import Septet.Text.Hex
import Septet.Text.Utf8
import Septet.Text.Percent
import Septet.Text.Numeral
import Septet.Text.Printable
import Septet.Text.Quoted
import Septet.Quantity.Width
import Septet.Quantity.Basic
import Septet.Quantity.Sequence
import Septet.Stream.Basic
import Septet.Stream.Buffer
import Septet.Stream.File
import Septet.Name.Digest
import Septet.Record.Basic
import Septet.Decimal.Binary64
import Septet.Decimal.Shortest
import Septet.Decimal.Reading
import Septet.Value.Calendar
import Septet.Value.Logger
import Septet.Value.Basic
import Septet.Value.Text
import Septet.Toml.Fault
import Septet.Toml.Blank
import Septet.Toml.Text
import Septet.Toml.Name
import Septet.Toml.Number
import Septet.Toml.Calendar
import Septet.Toml.Nest
import Septet.Toml.Value
import Septet.Toml.Document
import Septet.Settings.Basic
import Septet.Settings.Document
import Septet.Options.Knob
import Septet.Options.Basic
import Septet.Options.Arguments
import Septet.Options.Word
import Septet.Database.Basic
import Septet.Database.Lookup
import Septet.Database.Batch
import Septet.Database.Listing
import Septet.Database.Image
import Septet.Files.Path
import Septet.Files.System
import Septet.Store.Disk
import Septet.Store.Journal
import Septet.Store.Basic
import Septet.Store.Setup
import Septet.Store.Cursor
import Septet.CommandLine.Arguments
import Septet.CommandLine.Reading
import Septet.CommandLine.Invocation
import Septet.CommandLine.Timestamp
import Septet.CommandLine.Machine
import Septet.CommandLine.Run
import Septet.Main
import Septet.Proofs.Running
import Septet.Proofs.Quantity.RoundTrip
import Septet.Proofs.Quantity.Bits
import Septet.Proofs.Quantity.Spelling
import Septet.Proofs.Quantity.Decoding
import Septet.Proofs.Quantity.Sequence
import Septet.Proofs.Quantity.Canonical
import Septet.Proofs.Quantity.Size
import Septet.Proofs.Quantity.Widths
import Septet.Proofs.Stream.Writing
import Septet.Proofs.Stream.Run
import Septet.Proofs.Stream.Interchange
import Septet.Proofs.Stream.Reread
import Septet.Proofs.Stream.TornWrite
import Septet.Proofs.Text.Utf8RoundTrip
import Septet.Proofs.Text.Utf8Strict
import Septet.Proofs.Text.Graphic
import Septet.Proofs.Text.Digits
import Septet.Proofs.Toml.Names
import Septet.Proofs.Options.History
import Septet.Proofs.Options.Order
import Septet.Proofs.Record.RoundTrip
import Septet.Proofs.Record.Layout
import Septet.Proofs.Record.Offsets
import Septet.Proofs.Record.Decoding
import Septet.Proofs.Record.Canonical
import Septet.Proofs.Database.View
import Septet.Proofs.Database.Scan
import Septet.Proofs.Database.Write
import Septet.Proofs.Database.OneByOne
import Septet.Proofs.Database.Allotment
import Septet.Proofs.Database.Isolation
import Septet.Proofs.Database.Refusal
import Septet.Proofs.Database.Regular
import Septet.Proofs.Database.Records
import Septet.Proofs.Store.Session
import Septet.Proofs.Store.Batches
import Septet.Proofs.Store.Numbering
import Septet.Proofs.Store.Catalogue
import Septet.Proofs.Store.Service
import Septet.Proofs.Store.Isolation
import Septet.Proofs.Store.Opening
import Septet.Proofs.Store.Workshop
import Septet.Proofs.Store.Sharing
import Septet.Proofs.Store.Lines
import Septet.Proofs.Store.Listings
import Septet.Proofs.Store.Interruption
import Septet.Proofs.Files.Directories
import Septet.Proofs.Store.Visits
import Septet.Proofs.CommandLine.Reports
import Septet.Proofs.CommandLine.Words
import Septet.Proofs.CommandLine.Shelf
import Septet.Proofs.CommandLine.Flags
import Septet.Proofs.CommandLine.Quantities
