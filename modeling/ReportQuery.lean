import ReportQuery.Calendar.Date
import ReportQuery.Command.Program
import ReportQuery.Json.Writer
import ReportQuery.Macro.Expansion
import ReportQuery.Macro.Value
import ReportQuery.Main
import ReportQuery.Preparation
import ReportQuery.Proofs.Query.Clause
import ReportQuery.Proofs.Query.Columns
import ReportQuery.Proofs.Query.Layout
import ReportQuery.Proofs.Query.NestedField
import ReportQuery.Proofs.Query.Plain
import ReportQuery.Proofs.Query.RoundTrip
import ReportQuery.Proofs.Query.Sent
import ReportQuery.Proofs.Query.SentColumns
import ReportQuery.Proofs.Query.Written
import ReportQuery.Proofs.Schema.Names
import ReportQuery.Proofs.Text.Integer
import ReportQuery.Proofs.Text.Lower
import ReportQuery.Proofs.Text.Piece
import ReportQuery.Query.Compiled
import ReportQuery.Retry
import ReportQuery.Settings.Discovery
import ReportQuery.Toml.Document
import ReportQuery.Proofs.Schema.FieldPath
import ReportQuery.Proofs.Expr.Frames
import ReportQuery.Proofs.Expr.Held
import ReportQuery.Proofs.Expr.Language
import ReportQuery.Proofs.Macro.Substitution
import ReportQuery.Proofs.Query.Unfilled
import ReportQuery.Proofs.Preparation
import ReportQuery.Proofs.Schema.Growth
import ReportQuery.Proofs.Query.Growth
import ReportQuery.Proofs.Macro.Settled
import ReportQuery.Proofs.Macro.Order
import ReportQuery.Proofs.Expr.Printing
import ReportQuery.Proofs.Expr.Spelling
import ReportQuery.Proofs.Expr.RoundTrip
import ReportQuery.Proofs.Schema.Qualified
import ReportQuery.Proofs.Macro.Refill
import ReportQuery.Proofs.Ascending
import ReportQuery.Proofs.Schema.Descriptor
import ReportQuery.Proofs.Schema.Naming
import ReportQuery.Proofs.Schema.Ordered
import ReportQuery.Proofs.Schema.RoundTrip
import ReportQuery.Proofs.Retry
import ReportQuery.Proofs.Query.ItemSpelling
import ReportQuery.Proofs.Query.NamedSource
import ReportQuery.Proofs.Query.Rest
import ReportQuery.Proofs.Query.Comment
import ReportQuery.Proofs.Query.Literal
import ReportQuery.Proofs.Query.Filling
import ReportQuery.Proofs.Query.Removal
import ReportQuery.Proofs.Query.SecondRun
import ReportQuery.Proofs.Query.Comma
import ReportQuery.Proofs.Macro.Segments
import ReportQuery.Proofs.Expr.Beginning
import ReportQuery.Proofs.Decimal.Digits
import ReportQuery.Proofs.Decimal.Integer
import ReportQuery.Proofs.Macro.Printed
import ReportQuery.Proofs.Expr.Span
import ReportQuery.Proofs.Decimal.Order
import ReportQuery.Proofs.Expr.Comparison
import ReportQuery.Proofs.Calendar.Day
import ReportQuery.Proofs.Macro.DenotedDay
import ReportQuery.Proofs.Macro.DateGrammar
import ReportQuery.Proofs.Calendar.Text
import ReportQuery.Proofs.Macro.Marked
import ReportQuery.Proofs.Macro.Yesterday
import ReportQuery.Proofs.Variable
import ReportQuery.Proofs.Delay
import ReportQuery.Proofs.Template.Parameters
