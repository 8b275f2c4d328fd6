import Delimited.Command.Arguments
import Delimited.Command.Run
import Delimited.Dialect
import Delimited.Evidence.Comment
import Delimited.Evidence.Delimiter
import Delimited.Evidence.Escape
import Delimited.Evidence.NullString
import Delimited.Evidence.Quote
import Delimited.Evidence.Strongest
import Delimited.Fragment
import Delimited.Guess
import Delimited.Layout.Header
import Delimited.Layout.RaggedPrefix
import Delimited.Main
import Delimited.Number.Binary64
import Delimited.Number.Decimal
import Delimited.Number.Reading
import Delimited.Proofs.Command.ExitCode
import Delimited.Proofs.Evidence.Candidates
import Delimited.Proofs.Evidence.CommentLines
import Delimited.Proofs.Evidence.DataLines
import Delimited.Proofs.Evidence.InnerQuotes
import Delimited.Proofs.Evidence.MostFound
import Delimited.Proofs.Evidence.WholeFields
import Delimited.Proofs.Guess.Faults
import Delimited.Proofs.Guess.FirstRow
import Delimited.Proofs.Guess.HeaderReading
import Delimited.Proofs.Guess.HeaderSkip
import Delimited.Proofs.Guess.LineNumbers
import Delimited.Proofs.Guess.MarkerSet
import Delimited.Proofs.Guess.ReadingBack
import Delimited.Proofs.Guess.Restating
import Delimited.Proofs.Guess.RowsCovered
import Delimited.Proofs.Guess.Stages
import Delimited.Proofs.Guess.Trimming
import Delimited.Proofs.Guess.Warnings
import Delimited.Proofs.Layout.NarrowRecords
import Delimited.Proofs.Layout.RaggedPrefix
import Delimited.Proofs.Outcome
import Delimited.Proofs.Record.Calls
import Delimited.Proofs.Record.Concatenation
import Delimited.Proofs.Record.Course
import Delimited.Proofs.Record.Division
import Delimited.Proofs.Record.Driving
import Delimited.Proofs.Record.EmptyLines
import Delimited.Proofs.Record.EmptyRecord
import Delimited.Proofs.Record.Extent
import Delimited.Proofs.Record.Fates
import Delimited.Proofs.Record.OneLine
import Delimited.Proofs.Record.Passed
import Delimited.Proofs.Record.QuotedSize
import Delimited.Proofs.Record.Readings
import Delimited.Proofs.Record.Recovery
import Delimited.Proofs.Record.Renumbered
import Delimited.Proofs.Record.RoundTrip
import Delimited.Proofs.Record.Scanning
import Delimited.Proofs.Record.Trimmed
import Delimited.Proofs.Record.Unquoted
import Delimited.Proofs.Record.Writing
import Delimited.Proofs.Sample.Bound
import Delimited.Proofs.Sample.Sources
import Delimited.Proofs.Sample.Stream
import Delimited.Proofs.Sample.WholeLines
import Delimited.Proofs.Schema.RowTypes
import Delimited.Proofs.Schema.Shape
import Delimited.Proofs.Schema.ValueTests
import Delimited.Proofs.Settings.Checking
import Delimited.Proofs.Settings.Merging
import Delimited.Proofs.Settings.Restating
import Delimited.Proofs.Settings.Section
import Delimited.Proofs.Text.Pattern
import Delimited.Proofs.Text.Utf8
import Delimited.Record.Column
import Delimited.Record.Driver
import Delimited.Record.Fault
import Delimited.Record.Reader
import Delimited.Record.Split
import Delimited.Report
import Delimited.Sample.Bound
import Delimited.Sample.Item
import Delimited.Sample.Line
import Delimited.Sample.Source
import Delimited.Sample.Stream
import Delimited.Sample.Stretch
import Delimited.Schema.ColumnType
import Delimited.Schema.Timestamp
import Delimited.Settings.Document
import Delimited.Settings.Overrides
import Delimited.Settings.Value
import Delimited.Settings.Writer
import Delimited.Statistics
import Delimited.Text.Basic
import Delimited.Text.Blank
import Delimited.Text.Digit
import Delimited.Text.Pattern
import Delimited.Text.Printable
import Delimited.Text.Quoted
import Delimited.Text.Utf8
import Delimited.Tunables
