import TestBench.Aliases
import TestBench.Assertion.Expression
import TestBench.Assertion.Predicate
import TestBench.Assertion.Verdict
import TestBench.CommandLine.Arguments
import TestBench.CommandLine.Help
import TestBench.CommandLine.Rule
import TestBench.Config.Basic
import TestBench.Config.Document
import TestBench.Config.Environment
import TestBench.Decimal.Binary64
import TestBench.Decimal.Literal
import TestBench.Decimal.Shortest
import TestBench.Decode.JsonFormat
import TestBench.Decode.Parameters
import TestBench.Decode.Record
import TestBench.Decode.Refusal
import TestBench.Decode.Suite
import TestBench.Decode.YamlFormat
import TestBench.Digest
import TestBench.Discovery
import TestBench.Elapsed
import TestBench.Executor.Basic
import TestBench.Executor.Builtin
import TestBench.Executor.Exec
import TestBench.Executor.Machine
import TestBench.Executor.ReadFile
import TestBench.Executor.Request
import TestBench.Executor.Scripted
import TestBench.Files.Lookup
import TestBench.Files.Node
import TestBench.Files.Walk
import TestBench.Glob.Basic
import TestBench.Glob.Reader
import TestBench.Json.Basic
import TestBench.Json.Printer
import TestBench.Json.Reader
import TestBench.Json.Token
import TestBench.Levels
import TestBench.Main
import TestBench.Observed
import TestBench.Path
import TestBench.Program
import TestBench.Proofs.AcceptedPaths
import TestBench.Proofs.AliasEntries
import TestBench.Proofs.AliasLayers
import TestBench.Proofs.AttemptSequence
import TestBench.Proofs.Attempts
import TestBench.Proofs.Bookkeeping
import TestBench.Proofs.BracesInFront
import TestBench.Proofs.CaseEnd
import TestBench.Proofs.ConfigLayers
import TestBench.Proofs.CountedPieces
import TestBench.Proofs.CsvReading
import TestBench.Proofs.Deadlines
import TestBench.Proofs.DeclaredAssertions
import TestBench.Proofs.Decoding
import TestBench.Proofs.Deliveries
import TestBench.Proofs.DigestEquality
import TestBench.Proofs.DirectoryPattern
import TestBench.Proofs.DistinctFiles
import TestBench.Proofs.Emptiness
import TestBench.Proofs.EndingPattern
import TestBench.Proofs.ExactValues
import TestBench.Proofs.Existence
import TestBench.Proofs.ExitCode
import TestBench.Proofs.Expansion
import TestBench.Proofs.ExpressionGrammar
import TestBench.Proofs.FieldLeaves
import TestBench.Proofs.FileOrder
import TestBench.Proofs.FileTable
import TestBench.Proofs.Flattening
import TestBench.Proofs.FoundFiles
import TestBench.Proofs.IdlePieces
import TestBench.Proofs.Interleaving
import TestBench.Proofs.Invocations
import TestBench.Proofs.JsonInside
import TestBench.Proofs.JsonNesting
import TestBench.Proofs.JsonTokens
import TestBench.Proofs.Judging
import TestBench.Proofs.LetterCase
import TestBench.Proofs.Limits
import TestBench.Proofs.LiteralText
import TestBench.Proofs.NamedFile
import TestBench.Proofs.PathOrder
import TestBench.Proofs.PathSpelling
import TestBench.Proofs.PatternFilter
import TestBench.Proofs.PlainKeys
import TestBench.Proofs.PredicateAlgebra
import TestBench.Proofs.RecordFields
import TestBench.Proofs.RecordedSuites
import TestBench.Proofs.RejectedFiles
import TestBench.Proofs.ReportReading
import TestBench.Proofs.Reporting
import TestBench.Proofs.ReservedKeys
import TestBench.Proofs.RetrySettings
import TestBench.Proofs.Rounding
import TestBench.Proofs.RunStart
import TestBench.Proofs.Schedule
import TestBench.Proofs.Session
import TestBench.Proofs.ShownCounts
import TestBench.Proofs.SortedFields
import TestBench.Proofs.SpacedWords
import TestBench.Proofs.Task
import TestBench.Proofs.TextPieces
import TestBench.Proofs.Timestamps
import TestBench.Proofs.Totals
import TestBench.Proofs.UnmarkedPaths
import TestBench.Proofs.UnreadKeys
import TestBench.Proofs.VirtualTime
import TestBench.Proofs.WalkedFiles
import TestBench.Proofs.WholeNumbers
import TestBench.Proofs.Workshop
import TestBench.Report.Csv
import TestBench.Report.Document
import TestBench.Report.StatusLine
import TestBench.Report.Table
import TestBench.Report.Text
import TestBench.Run.All
import TestBench.Run.Step
import TestBench.Run.Suite
import TestBench.Schema
import TestBench.Shell.Arithmetic
import TestBench.Shell.Builtin
import TestBench.Shell.Condition
import TestBench.Shell.Fields
import TestBench.Shell.Format
import TestBench.Shell.Octets
import TestBench.Shell.Pattern
import TestBench.Shell.Reader
import TestBench.Shell.Run
import TestBench.Shell.Signal
import TestBench.Shell.State
import TestBench.Shell.Tree
import TestBench.Step
import TestBench.Suite
import TestBench.Text.Blank
import TestBench.Text.CaseTable
import TestBench.Text.Column
import TestBench.Text.HiddenTable
import TestBench.Text.Lowercase
import TestBench.Text.Quoted
import TestBench.Text.Search
import TestBench.Text.Utf8
import TestBench.Text.Whole
import TestBench.Timestamp
import TestBench.Totals
import TestBench.Url.Basic
import TestBench.Url.Host
import TestBench.Utility.Basic
import TestBench.Utility.Table
import TestBench.Utility.Text
import TestBench.Utility.Tree
import TestBench.Utility.Values
import TestBench.Yaml.Cursor
import TestBench.Yaml.Node
import TestBench.Yaml.Printer
import TestBench.Yaml.Scalar
import TestBench.Yaml.Schema
import TestBench.Yaml.Style
import TestBench.Yaml.Token
import TestBench.Yaml.Tree
import TestBench.Yaml.Value
