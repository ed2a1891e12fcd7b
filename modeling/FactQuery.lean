import FactQuery.Binary64.Arithmetic
import FactQuery.Binary64.Basic
import FactQuery.Binary64.Reading
import FactQuery.Binary64.Shortest
import FactQuery.Check
import FactQuery.Command.Arguments
import FactQuery.Command.Run
import FactQuery.Decimal.Basic
import FactQuery.Decimal.Reading
import FactQuery.Evaluation.Basic
import FactQuery.Evaluation.Findings
import FactQuery.Expr.Basic
import FactQuery.Expr.Operator
import FactQuery.Expr.Rendering
import FactQuery.Fact
import FactQuery.Grammar.Basic
import FactQuery.Grammar.Cursor
import FactQuery.Grammar.Error
import FactQuery.Grammar.Rule
import FactQuery.Json.Basic
import FactQuery.Json.Facts
import FactQuery.Json.Reading
import FactQuery.Log
import FactQuery.Main
import FactQuery.Proofs.Adjacency
import FactQuery.Proofs.Backtracking
import FactQuery.Proofs.Coherence
import FactQuery.Proofs.Composition
import FactQuery.Proofs.Conversion
import FactQuery.Proofs.CursorConvention
import FactQuery.Proofs.Derivation
import FactQuery.Proofs.Descent
import FactQuery.Proofs.EntryPoints
import FactQuery.Proofs.ExactOrder
import FactQuery.Proofs.Extent
import FactQuery.Proofs.FieldOrder
import FactQuery.Proofs.FilterAsConjunction
import FactQuery.Proofs.Incomparable
import FactQuery.Proofs.IntegerConditions
import FactQuery.Proofs.Layout
import FactQuery.Proofs.Lookahead
import FactQuery.Proofs.Membership
import FactQuery.Proofs.Nesting
import FactQuery.Proofs.NestingLimit
import FactQuery.Proofs.Numerals
import FactQuery.Proofs.Obstacles
import FactQuery.Proofs.OffendingToken
import FactQuery.Proofs.ReadingBack
import FactQuery.Proofs.Relevance
import FactQuery.Proofs.Rendering
import FactQuery.Proofs.Reporting
import FactQuery.Proofs.RoundTrip
import FactQuery.Proofs.Scoping
import FactQuery.Proofs.Segmentation
import FactQuery.Proofs.Separation
import FactQuery.Proofs.Spacing
import FactQuery.Proofs.Spelling
import FactQuery.Proofs.Stepping
import FactQuery.Proofs.Unambiguous
import FactQuery.Proofs.Violations
import FactQuery.Proofs.WellTyped
import FactQuery.Query
import FactQuery.Scientific
import FactQuery.Text.Alphanumeric
import FactQuery.Text.Blank
import FactQuery.Text.Ranges
import FactQuery.Token.Adjacency
import FactQuery.Token.Basic
import FactQuery.Token.Fault
import FactQuery.Token.Keyword
import FactQuery.Token.Lexeme
import FactQuery.Token.Lexer
import FactQuery.Token.Listing
import FactQuery.Value
import FactQuery.Proofs.ClampedWalk
import FactQuery.Proofs.FreshStart
import FactQuery.Proofs.Trail
