import SeriesFormula.Calendar.Date
import SeriesFormula.Calendar.Reader
import SeriesFormula.Command.Check
import SeriesFormula.Command.Evaluate
import SeriesFormula.Command.Output
import SeriesFormula.Csv.Record
import SeriesFormula.Decimal.Binary64
import SeriesFormula.Decimal.Layout
import SeriesFormula.Decimal.Literal
import SeriesFormula.Decimal.Nearest
import SeriesFormula.Decimal.Shortest
import SeriesFormula.Exchange.Decode
import SeriesFormula.Exchange.Encode
import SeriesFormula.Fixture.Basic
import SeriesFormula.Fixture.Bundled
import SeriesFormula.Fixture.Suite
import SeriesFormula.Formula.Context
import SeriesFormula.Formula.Evaluate
import SeriesFormula.Formula.Expr
import SeriesFormula.Formula.Function
import SeriesFormula.Formula.Ledger
import SeriesFormula.Formula.Parser
import SeriesFormula.Formula.Policy
import SeriesFormula.Formula.Registry
import SeriesFormula.Formula.Value
import SeriesFormula.Json.Basic
import SeriesFormula.Json.Document
import SeriesFormula.Json.Reader
import SeriesFormula.Json.Token
import SeriesFormula.Main
import SeriesFormula.Number
import SeriesFormula.Proofs.Calendar.Layout
import SeriesFormula.Proofs.Calendar.Spelling
import SeriesFormula.Proofs.Csv.Record
import SeriesFormula.Proofs.Decimal.Order
import SeriesFormula.Proofs.Decimal.Pattern
import SeriesFormula.Proofs.Decimal.Plain
import SeriesFormula.Proofs.Decimal.ReadBack
import SeriesFormula.Proofs.Decimal.Rounding
import SeriesFormula.Proofs.Decimal.Scanner
import SeriesFormula.Proofs.Decimal.Spelling
import SeriesFormula.Proofs.Decimal.Value
import SeriesFormula.Proofs.Decimal.Whole
import SeriesFormula.Proofs.Fixture.Listing
import SeriesFormula.Proofs.Fixture.Suite
import SeriesFormula.Proofs.Fixture.Verdict
import SeriesFormula.Proofs.Formula.Arguments
import SeriesFormula.Proofs.Formula.Builtin
import SeriesFormula.Proofs.Formula.Call
import SeriesFormula.Proofs.Formula.CallTree
import SeriesFormula.Proofs.Formula.Canonical
import SeriesFormula.Proofs.Formula.Context
import SeriesFormula.Proofs.Formula.Counting
import SeriesFormula.Proofs.Formula.Cutting
import SeriesFormula.Proofs.Formula.Evaluation
import SeriesFormula.Proofs.Formula.Exchange
import SeriesFormula.Proofs.Formula.Grammar
import SeriesFormula.Proofs.Formula.Kind
import SeriesFormula.Proofs.Formula.Limits
import SeriesFormula.Proofs.Formula.LookBack
import SeriesFormula.Proofs.Formula.Names
import SeriesFormula.Proofs.Formula.Naming
import SeriesFormula.Proofs.Formula.Printed
import SeriesFormula.Proofs.Formula.Provenance
import SeriesFormula.Proofs.Formula.Reading
import SeriesFormula.Proofs.Formula.Refusal
import SeriesFormula.Proofs.Formula.Registry
import SeriesFormula.Proofs.Formula.Relabelling
import SeriesFormula.Proofs.Formula.SavedLedger
import SeriesFormula.Proofs.Formula.Slicing
import SeriesFormula.Proofs.Formula.Substitution
import SeriesFormula.Proofs.Formula.Trace
import SeriesFormula.Proofs.Formula.Units
import SeriesFormula.Proofs.Json.Document
import SeriesFormula.Proofs.Json.Form
import SeriesFormula.Proofs.Json.Reader
import SeriesFormula.Proofs.Json.Token
import SeriesFormula.Proofs.Json.Written
import SeriesFormula.Proofs.Result
import SeriesFormula.Proofs.Series.Alignment
import SeriesFormula.Proofs.Series.Chronology
import SeriesFormula.Proofs.Series.Interval
import SeriesFormula.Proofs.Series.Range
import SeriesFormula.Proofs.Series.RangeExchange
import SeriesFormula.Proofs.Series.Selection
import SeriesFormula.Proofs.Series.Validation
import SeriesFormula.Proofs.Source.Cell
import SeriesFormula.Proofs.Source.Columns
import SeriesFormula.Proofs.Source.Document
import SeriesFormula.Proofs.Source.Exchange
import SeriesFormula.Proofs.Source.Folder
import SeriesFormula.Proofs.Source.Identifier
import SeriesFormula.Proofs.Source.Load
import SeriesFormula.Proofs.Source.Table
import SeriesFormula.Proofs.Statistics.Average
import SeriesFormula.Proofs.Statistics.Correlation
import SeriesFormula.Proofs.Statistics.Exact
import SeriesFormula.Proofs.Statistics.LeastSquares
import SeriesFormula.Proofs.Statistics.LookBack
import SeriesFormula.Proofs.Statistics.Pearson
import SeriesFormula.Proofs.Statistics.Pointwise
import SeriesFormula.Proofs.Statistics.Position
import SeriesFormula.Proofs.Statistics.Scaling
import SeriesFormula.Proofs.Statistics.Strength
import SeriesFormula.Proofs.Text.Blank
import SeriesFormula.Proofs.Text.Bytes
import SeriesFormula.Proofs.Text.Case
import SeriesFormula.Series.Basic
import SeriesFormula.Series.Error
import SeriesFormula.Series.Index
import SeriesFormula.Series.Observation
import SeriesFormula.Series.Range
import SeriesFormula.Source.Document
import SeriesFormula.Source.Error
import SeriesFormula.Source.Folder
import SeriesFormula.Source.Load
import SeriesFormula.Source.Table
import SeriesFormula.Statistics.Aggregate
import SeriesFormula.Statistics.Correlation
import SeriesFormula.Statistics.Indicator
import SeriesFormula.Statistics.Regression
import SeriesFormula.Text.Blank
import SeriesFormula.Text.Case
import SeriesFormula.Text.Quoted
import SeriesFormula.Text.Shown
import SeriesFormula.Proofs.Series.Offence
import SeriesFormula.Proofs.Formula.Recursion
