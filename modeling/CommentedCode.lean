import CommentedCode.Classifier.Basic
import CommentedCode.Classifier.Guard
import CommentedCode.Classifier.Options
import CommentedCode.CommandLine.Grammar
import CommentedCode.CommandLine.Request
import CommentedCode.CommandLine.Run
import CommentedCode.Comment.Capture
import CommentedCode.Comment.Segment
import CommentedCode.Decimal.Basic
import CommentedCode.Decimal.Nearest
import CommentedCode.Decimal.Notation
import CommentedCode.Decimal.Reading
import CommentedCode.Decimal.Shortest
import CommentedCode.Decimal.TwoPlaces
import CommentedCode.Evidence.Arithmetic
import CommentedCode.Evidence.Basic
import CommentedCode.Evidence.Measure
import CommentedCode.Files.Discovery
import CommentedCode.Files.Listing
import CommentedCode.Files.Lookup
import CommentedCode.Files.Path
import CommentedCode.Text.Utf8
import CommentedCode.Ignore.Glob
import CommentedCode.Ignore.Pattern
import CommentedCode.Ignore.Rules
import CommentedCode.Report.Basic
import CommentedCode.Report.Check
import CommentedCode.Report.Message
import CommentedCode.Report.Notice
import CommentedCode.Report.Pool
import CommentedCode.Report.Rendering
import CommentedCode.Settings.Basic
import CommentedCode.Settings.Loading
import CommentedCode.Settings.Reading
import CommentedCode.Settings.Record
import CommentedCode.Text.Basic
import CommentedCode.Text.Character
import CommentedCode.Text.Json
import CommentedCode.Text.LetterCase
import CommentedCode.Text.Lines
import CommentedCode.Text.Lowercase
import CommentedCode.Text.Printable
import CommentedCode.Text.Quoted
import CommentedCode.Value.Basic
import CommentedCode.Value.Coercion
import CommentedCode.Value.Display
import CommentedCode.Yaml.Document
import CommentedCode.Yaml.Input
import CommentedCode.Yaml.Node
import CommentedCode.Yaml.Scalar
import CommentedCode.Yaml.Schema
import CommentedCode.Yaml.Token
import CommentedCode.Main
import CommentedCode.Proofs.Classifier.Decision
import CommentedCode.Proofs.Classifier.Leniency
import CommentedCode.Proofs.Classifier.EmptyLines
import CommentedCode.Proofs.Double.Order
import CommentedCode.Proofs.Double.Rounding
import CommentedCode.Proofs.Double.Encoding
import CommentedCode.Proofs.Double.Probability
import CommentedCode.Proofs.Double.Nearest
import CommentedCode.Proofs.Report.Leniency
import CommentedCode.Proofs.Ignore.Matching
import CommentedCode.Proofs.Ignore.Reading
import CommentedCode.Proofs.Files.Pruning
import CommentedCode.Proofs.Comment.Segmentation
import CommentedCode.Proofs.Text.Encoding
import CommentedCode.Proofs.Text.Decoding
import CommentedCode.Proofs.Text.Damaged
import CommentedCode.Proofs.Comment.Placement
import CommentedCode.Proofs.Outcome
import CommentedCode.Proofs.Comment.Extraction
import CommentedCode.Proofs.Text.LineBreaks
import CommentedCode.Proofs.Text.Lines
import CommentedCode.Proofs.Text.Joined
import CommentedCode.Proofs.Text.Unified
import CommentedCode.Proofs.Text.Occurrence
import CommentedCode.Proofs.Decimal.Reading
import CommentedCode.Proofs.Decimal.Rounding
import CommentedCode.Proofs.Decimal.Literal
import CommentedCode.Proofs.Decimal.Shortest
import CommentedCode.Proofs.Decimal.ReadBack
import CommentedCode.Proofs.Text.Json
import CommentedCode.Proofs.Decimal.Places
import CommentedCode.Proofs.Evidence.Score
import CommentedCode.Proofs.Double.Grid
import CommentedCode.Proofs.Double.Value
import CommentedCode.Proofs.Evidence.Monotone
import CommentedCode.Proofs.Evidence.Counts
import CommentedCode.Proofs.Evidence.Measure
import CommentedCode.Proofs.Evidence.Appending
import CommentedCode.Proofs.Classifier.SkipLine
import CommentedCode.Proofs.Classifier.Indentation
import CommentedCode.Proofs.Classifier.SkipPattern
import CommentedCode.Proofs.Comment.Numbering
import CommentedCode.Proofs.Comment.Composition
import CommentedCode.Proofs.Comment.LineBreaks
import CommentedCode.Proofs.Files.Tree
import CommentedCode.Proofs.Files.Links
import CommentedCode.Proofs.Files.Path
import CommentedCode.Proofs.Files.Lookup
import CommentedCode.Proofs.Files.Walk
import CommentedCode.Proofs.Files.Collection
import CommentedCode.Proofs.Files.Selection
import CommentedCode.Proofs.Ignore.WellFormed
import CommentedCode.Proofs.Ignore.Appending
import CommentedCode.Proofs.Files.Filtering
import CommentedCode.Proofs.Value.Coercion
import CommentedCode.Proofs.Settings.Reading
import CommentedCode.Proofs.Settings.Keys
import CommentedCode.Proofs.Settings.Building
import CommentedCode.Proofs.Settings.Overriding
import CommentedCode.Proofs.Report.Violations
import CommentedCode.Proofs.Report.Composition
import CommentedCode.Proofs.Report.LineBreaks
import CommentedCode.Proofs.Report.Damaged
import CommentedCode.Proofs.Report.TwoPlaces
import CommentedCode.Proofs.Report.Pool
import CommentedCode.Proofs.Files.Returning
import CommentedCode.Proofs.Report.Run
import CommentedCode.Proofs.Report.Integrity
import CommentedCode.Proofs.Report.Rendering
import CommentedCode.Proofs.Report.Legible
import CommentedCode.Proofs.Settings.Reachable
import CommentedCode.Proofs.CommandLine.Request
import CommentedCode.Proofs.CommandLine.Classifying
import CommentedCode.Proofs.CommandLine.CommentText
import CommentedCode.Proofs.CommandLine.Undecodable
import CommentedCode.Proofs.CommandLine.Checking
import CommentedCode.Proofs.Settings.RoundTrip
import CommentedCode.Proofs.Value.Location
import CommentedCode.Proofs.Value.Texts
import CommentedCode.Proofs.Files.Union
import CommentedCode.Proofs.Text.Rows
import CommentedCode.Proofs.Text.Splitting
import CommentedCode.Proofs.Comment.Rows
import CommentedCode.Proofs.Evidence.CamelCase
import CommentedCode.Proofs.Text.Selection
import CommentedCode.Proofs.Settings.Texts
