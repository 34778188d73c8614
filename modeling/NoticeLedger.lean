import NoticeLedger.Acceptance
import NoticeLedger.Command
import NoticeLedger.Command.Answer
import NoticeLedger.Context
import NoticeLedger.Decimal
import NoticeLedger.Decimal.Layout
import NoticeLedger.Decimal.Reading
import NoticeLedger.Decimal.Shortest
import NoticeLedger.Diff
import NoticeLedger.Files.Path
import NoticeLedger.Files.Tree
import NoticeLedger.Journal
import NoticeLedger.Json
import NoticeLedger.Json.Fault
import NoticeLedger.Json.NumberLiteral
import NoticeLedger.Json.Reader
import NoticeLedger.Json.StringLiteral
import NoticeLedger.Json.Writer
import NoticeLedger.Key
import NoticeLedger.KeyMap
import NoticeLedger.Limits
import NoticeLedger.Limits.File
import NoticeLedger.Main
import NoticeLedger.Notice
import NoticeLedger.Notice.Fields
import NoticeLedger.Outcome
import NoticeLedger.Proofs.Calls
import NoticeLedger.Proofs.Conservation
import NoticeLedger.Proofs.Contexts
import NoticeLedger.Proofs.Decimal.Numerals
import NoticeLedger.Proofs.Errands
import NoticeLedger.Proofs.Exports
import NoticeLedger.Proofs.GroupDocuments
import NoticeLedger.Proofs.Json.Documents
import NoticeLedger.Proofs.Json.Nesting
import NoticeLedger.Proofs.Json.Numbers
import NoticeLedger.Proofs.Json.Reordering
import NoticeLedger.Proofs.Json.Strings
import NoticeLedger.Proofs.KeyOrder
import NoticeLedger.Proofs.MemberOrder
import NoticeLedger.Proofs.Pool
import NoticeLedger.Proofs.Recording
import NoticeLedger.Proofs.ReportFormat
import NoticeLedger.Proofs.Reports
import NoticeLedger.Proofs.Retention
import NoticeLedger.Proofs.RoundTrip
import NoticeLedger.Proofs.Sampling
import NoticeLedger.Proofs.Sharding
import NoticeLedger.Proofs.SummaryFormat
import NoticeLedger.Proofs.Tallies
import NoticeLedger.Recorder
import NoticeLedger.Report
import NoticeLedger.Report.File
import NoticeLedger.Report.Groups
import NoticeLedger.Report.Reading
import NoticeLedger.Roster
import NoticeLedger.Severity
import NoticeLedger.Task
import NoticeLedger.Text
import NoticeLedger.Text.Blank
import NoticeLedger.Text.ControlSequence
import NoticeLedger.Text.Decoded
import NoticeLedger.Text.Digit
import NoticeLedger.Text.Printable
import NoticeLedger.Text.Quoted
import NoticeLedger.Text.Split
import NoticeLedger.Text.Utf8
import NoticeLedger.Value
import NoticeLedger.Value.Document
import NoticeLedger.Value.Order
import NoticeLedger.Value.Shown
import NoticeLedger.Yaml.Base64
import NoticeLedger.Yaml.Cursor
import NoticeLedger.Yaml.Document
import NoticeLedger.Yaml.Graph
import NoticeLedger.Yaml.Graph.Merging
import NoticeLedger.Yaml.Number
import NoticeLedger.Yaml.Scalar
import NoticeLedger.Yaml.Tag
import NoticeLedger.Yaml.Timestamp
import NoticeLedger.Yaml.Token
import NoticeLedger.Yaml.Token.Block
import NoticeLedger.Yaml.Token.Lexer
import NoticeLedger.Yaml.Token.Plain
import NoticeLedger.Yaml.Token.Properties
import NoticeLedger.Yaml.Token.Quoted
import NoticeLedger.Proofs.Consistency
import NoticeLedger.Proofs.JointDocuments
import NoticeLedger.Proofs.Provenance
import NoticeLedger.Proofs.Bracketing
import NoticeLedger.Roster.InPlace
import NoticeLedger.Proofs.InPlace
import NoticeLedger.Proofs.Refusals
import NoticeLedger.Proofs.Json.Remainders
import NoticeLedger.Proofs.Json.LongIntegers
import NoticeLedger.Proofs.ExitCodes
import NoticeLedger.Proofs.Options
import NoticeLedger.Proofs.LimitsFaults
import NoticeLedger.Proofs.Double.Value
import NoticeLedger.Proofs.Double.Rounding
import NoticeLedger.Proofs.Double.Arithmetic
import NoticeLedger.Proofs.Percentages
import NoticeLedger.Proofs.Bookkeeping
import NoticeLedger.Proofs.Weights
import NoticeLedger.Proofs.Growth
import NoticeLedger.Proofs.SampleBounds
import NoticeLedger.Proofs.Separation
import NoticeLedger.Proofs.Json.PlainTexts
import NoticeLedger.Proofs.ComparedReports
import NoticeLedger.Proofs.Datasets
import NoticeLedger.Proofs.SharedReports
import NoticeLedger.Proofs.WrittenReports
import NoticeLedger.Proofs.DirectoryVerdicts
import NoticeLedger.Proofs.LostDatasets
import NoticeLedger.Proofs.Groupwise
import NoticeLedger.Proofs.Normalization
import NoticeLedger.Proofs.ContextVariants
import NoticeLedger.Proofs.Decimal.Shortest
import NoticeLedger.Proofs.Double.Decimals
import NoticeLedger.Proofs.Json.CanonicalForms
import NoticeLedger.Proofs.KeySets
import NoticeLedger.Proofs.StableGroups
import NoticeLedger.Proofs.ErrorSets
import NoticeLedger.Proofs.CodeCounts
import NoticeLedger.Proofs.Acceptances
import NoticeLedger.Proofs.RaisedLimits
import NoticeLedger.Proofs.ErrorOrder
import NoticeLedger.Proofs.OptionSets
import NoticeLedger.Proofs.Endings
import NoticeLedger.Proofs.FieldFaults
import NoticeLedger.Proofs.NoticeFields
import NoticeLedger.Proofs.KindedNotices
import NoticeLedger.Proofs.FailedWrites
import NoticeLedger.Proofs.FirstReadings
