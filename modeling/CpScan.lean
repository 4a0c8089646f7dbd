import CpScan.Text.CharClass
import CpScan.Text.Utf8
import CpScan.Source.Position
import CpScan.Decimal.Double
import CpScan.Decimal.Nearest
import CpScan.Decimal.Shortest
import CpScan.Decimal.Layout
import CpScan.Token.Kind
import CpScan.Token.Basic
import CpScan.Scan.Error
import CpScan.Scan.Cut
import CpScan.Scan.Basic
import CpScan.Text.Graphic
import CpScan.Text.Quoted
import CpScan.Text.Cursor
import CpScan.Text.ControlSequence
import CpScan.Diagnostic
import CpScan.Settings.Basic
import CpScan.Log.Event
import CpScan.Scan.Scanner
import CpScan.Text.Alphanumeric
import CpScan.Log.Pattern
import CpScan.Log.Filter
import CpScan.Log.Line
import CpScan.Failure
import CpScan.Session.Channel
import CpScan.Session.Plan
import CpScan.Files
import CpScan.Session.Basic
import CpScan.Toml.Value
import CpScan.Toml.Reader
import CpScan.Toml.Number
import CpScan.Toml.Document
import CpScan.Settings.Decode
import CpScan.Settings.Locate
import CpScan.CommandLine.Options
import CpScan.CommandLine.Parse
import CpScan.CommandLine.Help
import CpScan.Program
import CpScan.Main
import CpScan.Proofs.Text.Zipper
import CpScan.Proofs.Scan.Machine
import CpScan.Proofs.Scan.Grammar
import CpScan.Proofs.Scan.Coverage
import CpScan.Proofs.Scan.Lines
import CpScan.Proofs.Session.Faults
import CpScan.Proofs.Session.Prompt
import CpScan.Proofs.Scan.Joining
import CpScan.Proofs.Text.Encoding
import CpScan.Proofs.Scan.Masking
import CpScan.Proofs.Scan.Relexing
import CpScan.Proofs.Text.Decoding
import CpScan.Proofs.Session.Modes
import CpScan.Proofs.Scan.Spacing
import CpScan.Proofs.CommandLine.Given
import CpScan.Proofs.Session.Dump
import CpScan.Proofs.Program.ExitStatus
import CpScan.Proofs.Program.Logging
import CpScan.Proofs.Session.Outcome
import CpScan.Proofs.Scan.Isolation
import CpScan.Proofs.Scan.Renaming
import CpScan.Scan.Calling
import CpScan.Scan.Guarded
import CpScan.Proofs.Scan.Reporting
import CpScan.Proofs.Decimal.Digits
import CpScan.Proofs.Decimal.Rounding
import CpScan.Proofs.Decimal.Reading
import CpScan.Proofs.Scan.Numbers
import CpScan.Proofs.Decimal.Shortest
import CpScan.Proofs.Decimal.Numeral
import CpScan.Proofs.Scan.Printed
import CpScan.Proofs.Toml.Distinct
import CpScan.Proofs.Settings.Schema
import CpScan.Proofs.Text.Moves
import CpScan.Proofs.CommandLine.Spelling
import CpScan.Proofs.Scan.Safety
import CpScan.Proofs.Toml.Writing
import CpScan.Proofs.Settings.RoundTrip
import CpScan.Proofs.Text.Chunks
