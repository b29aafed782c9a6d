import Calculator.Config
import Calculator.Console
import Calculator.Error
import Calculator.Evaluation.Function
import Calculator.Evaluation.Operation
import Calculator.Evaluation.Result
import Calculator.Evaluation.Walk
import Calculator.Expr
import Calculator.Expr.Parser
import Calculator.Expr.Pool
import Calculator.Expr.Printer
import Calculator.FunctionKind
import Calculator.Journal
import Calculator.Journal.Log
import Calculator.Json.Reader
import Calculator.Json.Writer
import Calculator.Main
import Calculator.Number.Binary
import Calculator.Number.Decimal
import Calculator.Number.Notation
import Calculator.Number.Power
import Calculator.Number.Reading
import Calculator.Number.Rounding
import Calculator.Number.Shortest
import Calculator.Presentation
import Calculator.Proofs.Config.Loaded
import Calculator.Proofs.Config.Saved
import Calculator.Proofs.Console
import Calculator.Proofs.Entries
import Calculator.Proofs.Evaluation.Alike
import Calculator.Proofs.Evaluation.Factorial
import Calculator.Proofs.Evaluation.Finite
import Calculator.Proofs.Evaluation.Node
import Calculator.Proofs.Evaluation.Order
import Calculator.Proofs.Evaluation.Rounded
import Calculator.Proofs.Evaluation.Shown
import Calculator.Proofs.Evaluation.Trace
import Calculator.Proofs.Float.Bits
import Calculator.Proofs.Float.Close
import Calculator.Proofs.Float.Compare
import Calculator.Proofs.Float.Decimals
import Calculator.Proofs.Float.Fields
import Calculator.Proofs.Float.HalfUnit
import Calculator.Proofs.Float.Nearest
import Calculator.Proofs.Float.Order
import Calculator.Proofs.Float.Shortest
import Calculator.Proofs.Grammar
import Calculator.Proofs.Grammar.Completeness
import Calculator.Proofs.Grammar.Demand
import Calculator.Proofs.Grammar.Earliest
import Calculator.Proofs.Grammar.Errors
import Calculator.Proofs.Grammar.Faithful
import Calculator.Proofs.Grammar.Kinds
import Calculator.Proofs.Grammar.Limit
import Calculator.Proofs.Grammar.Moves
import Calculator.Proofs.Grammar.Nesting
import Calculator.Proofs.Grammar.Parsing
import Calculator.Proofs.Grammar.Returns
import Calculator.Proofs.Grammar.Soundness
import Calculator.Proofs.Grammar.Spans
import Calculator.Proofs.Grammar.Stack
import Calculator.Proofs.Grammar.Supply
import Calculator.Proofs.Grammar.Viable
import Calculator.Proofs.InPlace
import Calculator.Proofs.Json.Beginning
import Calculator.Proofs.Json.Grammar
import Calculator.Proofs.Json.Limits
import Calculator.Proofs.Json.Numbers
import Calculator.Proofs.Json.Storable
import Calculator.Proofs.Json.Strings
import Calculator.Proofs.Lexing
import Calculator.Proofs.Lexing.Lexeme
import Calculator.Proofs.Lexing.Munch
import Calculator.Proofs.Lexing.Numerals
import Calculator.Proofs.Lexing.Places
import Calculator.Proofs.Lexing.Scan
import Calculator.Proofs.Number.Canonical
import Calculator.Proofs.Number.Cut
import Calculator.Proofs.Number.HalfEven
import Calculator.Proofs.Number.Leading
import Calculator.Proofs.Number.Limits
import Calculator.Proofs.Number.Nearest
import Calculator.Proofs.Number.Numeral
import Calculator.Proofs.Number.Signed
import Calculator.Proofs.Number.Value
import Calculator.Proofs.Outcome
import Calculator.Proofs.Printing.Accepted
import Calculator.Proofs.Printing.Literal
import Calculator.Proofs.Printing.Reread
import Calculator.Proofs.Printing.Spelling
import Calculator.Proofs.Session.Basic
import Calculator.Proofs.Session.Closed
import Calculator.Proofs.Session.InPlace
import Calculator.Proofs.Session.Line
import Calculator.Proofs.Session.Localised
import Calculator.Proofs.Session.Recheck
import Calculator.Proofs.Session.Reprint
import Calculator.Proofs.Session.Traced
import Calculator.Proofs.Settings.Display
import Calculator.Proofs.Settings.Finite
import Calculator.Proofs.Settings.Idempotent
import Calculator.Proofs.Settings.Rounding
import Calculator.Proofs.Settings.Written
import Calculator.Proofs.Symbols.Assignment
import Calculator.Proofs.Symbols.Cells
import Calculator.Proofs.Symbols.History
import Calculator.Proofs.Symbols.Names
import Calculator.Proofs.Symbols.Table
import Calculator.Proofs.Text.Utf8
import Calculator.Proofs.Window.Job
import Calculator.Proofs.Window.Saving
import Calculator.Proofs.Window.Settings
import Calculator.Proofs.Window.Steps
import Calculator.Session
import Calculator.Settings
import Calculator.Settings.Format
import Calculator.Source
import Calculator.Startup
import Calculator.Symbols
import Calculator.Text.Blank
import Calculator.Text.Case
import Calculator.Text.Cased
import Calculator.Text.CharRange
import Calculator.Text.Letter
import Calculator.Text.Lines
import Calculator.Text.Loose
import Calculator.Text.Numeric
import Calculator.Text.Printable
import Calculator.Text.Quoted
import Calculator.Text.Utf8
import Calculator.Token
import Calculator.Token.Lexer
import Calculator.Value
import Calculator.Window
import Calculator.Window.Dialog
import Calculator.Window.Job
import Calculator.Proofs.Json.Beginning
