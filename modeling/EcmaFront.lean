import EcmaFront.Main
import EcmaFront.Proofs.Token.Gap
import EcmaFront.Proofs.Token.Spelled
import EcmaFront.Proofs.Token.Tiling
import EcmaFront.Proofs.Tree.Reading
import EcmaFront.Proofs.Tree.Written
import EcmaFront.Proofs.Tree.Soundness.Operator
import EcmaFront.Proofs.Tree.Soundness.Program
import EcmaFront.Proofs.Tree.Outline
import EcmaFront.Proofs.Tree.Filled
import EcmaFront.Proofs.Tree.Completeness.Primary
import EcmaFront.Proofs.Tree.Completeness.Operator
import EcmaFront.Proofs.Tree.Completeness.Program
import EcmaFront.Proofs.Tree.Bare
import EcmaFront.Proofs.Tree.Grammar
import EcmaFront.Proofs.Tree.Grammar.Written
import EcmaFront.Proofs.Tree.Grammar.Laid
import EcmaFront.Proofs.Tree.Grammar.Realizable
import EcmaFront.Proofs.Tree.Grammar.Realizable.Operator
import EcmaFront.Proofs.Token.Spaced
import EcmaFront.Proofs.Tree.Grammar.Slots
import EcmaFront.Proofs.Tree.Grammar.Parse
import EcmaFront.Proofs.Text.Lines
import EcmaFront.Proofs.Text.Order
import EcmaFront.Proofs.Compilation
import EcmaFront.Proofs.Token.Line
import EcmaFront.Proofs.Token.Strictness
import EcmaFront.Proofs.Token.Joined
import EcmaFront.Proofs.Tree.Ahead
import EcmaFront.Proofs.Tree.Nesting
import EcmaFront.Proofs.Tree.Appended
import EcmaFront.Proofs.Tree.Inside
import EcmaFront.Proofs.Tree.Strictness
import EcmaFront.Proofs.Machine.Fault
import EcmaFront.Proofs.Machine.Parser
import EcmaFront.Proofs.Machine.Agreement
import EcmaFront.Proofs.Machine.Expression
import EcmaFront.Proofs.Machine.Statement
import EcmaFront.Proofs.Machine.Calls
import EcmaFront.Proofs.Machine.Lines
import EcmaFront.Proofs.Machine.Scanner
import EcmaFront.Proofs.Machine.Pieces
import EcmaFront.Proofs.Machine.Scanning
import EcmaFront.Proofs.Machine.Faultless
import EcmaFront.Proofs.Machine.Comments
import EcmaFront.Proofs.Machine.Strings
import EcmaFront.Proofs.Tree.Grouping
import EcmaFront.Proofs.Token.Digits
import EcmaFront.Proofs.Tree.Checked
import EcmaFront.Proofs.Command.Arguments
import EcmaFront.Proofs.Command.Run
import EcmaFront.Proofs.Token.Longest
import EcmaFront.Proofs.Token.Respaced
import EcmaFront.Proofs.Token.Failure
import EcmaFront.Proofs.Tree.Blame.Reports
import EcmaFront.Proofs.Tree.Blame.Expression
import EcmaFront.Proofs.Tree.Blame.Operator
import EcmaFront.Proofs.Tree.Blame.Program
import EcmaFront.Proofs.Location
import EcmaFront.Proofs.Machine.Columns
import EcmaFront.Proofs.Machine.Numerals
import EcmaFront.Proofs.Diagnostic.Template
import EcmaFront.Proofs.Token.Capacity
