import ExprText.Text.CharSet
import ExprText.Text.Graphic
import ExprText.Text.Quoted
import ExprText.Decimal.Basic
import ExprText.Decimal.Numeral
import ExprText.Operator
import ExprText.Expr.Basic
import ExprText.Expr.Printer
import ExprText.Parser.Basic
import ExprText.Parser.Repeat
import ExprText.Parser.Regular
import ExprText.Parser.Backtracking
import ExprText.Parser.Exclusive
import ExprText.Parser.Recursion
import ExprText.Grammar.Lexical
import ExprText.Grammar.Rules
import ExprText.Grammar.Equations
import ExprText.Grammar.SinglePass
import ExprText.Outline
import ExprText.Reading
import ExprText.Log
import ExprText.Command
import ExprText.Main
import ExprText.Proofs.Derivation
import ExprText.Proofs.Lexemes
import ExprText.Proofs.Steps
import ExprText.Proofs.Soundness
import ExprText.Proofs.Completeness
import ExprText.Proofs.Acceptance
import ExprText.Proofs.LongestMatch
import ExprText.Proofs.Places
import ExprText.Proofs.Climbing
import ExprText.Proofs.Numerals
import ExprText.Proofs.RoundTrip
import ExprText.Proofs.Pieces
import ExprText.Proofs.Translation
import ExprText.Proofs.Spelling
import ExprText.Proofs.Tokens
import ExprText.Proofs.Parentheses
import ExprText.Proofs.OnePass
import ExprText.Proofs.Backtracking
import ExprText.Proofs.Rounding
import ExprText.Proofs.Iteration
import ExprText.Proofs.WholeNumbers
import ExprText.Proofs.Fronts
import ExprText.Proofs.Surroundings
import ExprText.Proofs.Lossless
import ExprText.Proofs.Variables
import ExprText.Proofs.Nesting
import ExprText.Proofs.Evaluation
import ExprText.Proofs.Progress
import ExprText.Proofs.Alternatives
import ExprText.Proofs.MaximalRuns
