import Formula.Main
import Formula.Proofs.Expr.Completeness
import Formula.Proofs.Expr.History
import Formula.Proofs.Expr.Spacing
import Formula.Proofs.Lex.Tiling
import Formula.Proofs.Lex.LongestMatch
import Formula.Proofs.Template.Lockstep
import Formula.Proofs.Template.RoundTrip
import Formula.Proofs.Expr.Strictness
import Formula.Proofs.Expr.Naming
import Formula.Proofs.Expr.Calls
import Formula.Expr.Parser
import Formula.Proofs.Expr.Descent
import Formula.Proofs.Template.Phases
import Formula.Proofs.Requests
import Formula.Proofs.Expr.Variables
import Formula.Proofs.Expr.Scope
import Formula.Proofs.Value.Faults
import Formula.Proofs.Expr.Literals
import Formula.Proofs.Lex.Options
import Formula.Proofs.Template.Grammar
import Formula.Proofs.Template.Misfits
import Formula.Proofs.Expr.Viable
import Formula.Proofs.Expr.Reserved
import Formula.Proofs.Value.Integers
import Formula.Proofs.Expr.Layout
import Formula.Proofs.Expr.LetterCase
import Formula.Proofs.Value.Powers
import Formula.Proofs.Value.Comparisons
import Formula.Proofs.Value.Meeting
import Formula.Proofs.Value.Patterns
import Formula.Proofs.Json.Conversion
import Formula.Proofs.Json.Order
import Formula.Proofs.Template.References
import Formula.Proofs.CommandLine.Variables
import Formula.Proofs.Expr.Numerals
import Formula.Proofs.Expr.Refusals
import Formula.Proofs.Expr.Extremes
import Formula.Proofs.Value.Spelling
import Formula.Proofs.Expr.SignedNumbers
import Formula.Proofs.Text.Tape
import Formula.Proofs.CommandLine.Members
