import Entailment.Argument.Basic
import Entailment.Argument.Reader
import Entailment.Argument.Verdict
import Entailment.CommandLine.Directory
import Entailment.CommandLine.Options
import Entailment.CommandLine.Path
import Entailment.CommandLine.Run
import Entailment.Comment
import Entailment.Cursor
import Entailment.Error
import Entailment.Formula.Basic
import Entailment.Formula.Condition
import Entailment.Formula.Reader
import Entailment.Formula.Valuation
import Entailment.Lexeme
import Entailment.Line
import Entailment.Log
import Entailment.Main
import Entailment.Name
import Entailment.Program
import Entailment.Schema.Basic
import Entailment.Schema.CodePoint
import Entailment.Schema.Gap
import Entailment.Schema.Literal
import Entailment.Schema.Piece
import Entailment.Schema.Reader
import Entailment.Schema.Word
import Entailment.Session
import Entailment.Sink
import Entailment.Source
import Entailment.Statement
import Entailment.Summary
import Entailment.Table
import Entailment.Token
import Entailment.TruthTable
import Entailment.Proofs.Meaning
import Entailment.Proofs.Rows
import Entailment.Proofs.Validity
import Entailment.Proofs.Derivation
import Entailment.Proofs.LexicalGrammar
import Entailment.Proofs.Parsing
import Entailment.Proofs.FormulaRendering
import Entailment.Proofs.Body
import Entailment.Proofs.ArgumentRendering
import Entailment.Proofs.AcceptedLines
import Entailment.Proofs.Comments
import Entailment.Proofs.CompleteRows
import Entailment.Proofs.Conclusion
import Entailment.Proofs.Course
import Entailment.Proofs.Definition
import Entailment.Proofs.Effects
import Entailment.Proofs.Execution
import Entailment.Proofs.Failure
import Entailment.Proofs.History
import Entailment.Proofs.Operators
import Entailment.Proofs.SinkFaults
import Entailment.Proofs.Tautology
import Entailment.Proofs.Truncation
import Entailment.Proofs.Configuration
import Entailment.Proofs.Bytes
import Entailment.Proofs.LineRendering
import Entailment.Proofs.LineShape
import Entailment.Proofs.Accounting
import Entailment.Proofs.Precedence
import Entailment.Proofs.Deduction
import Entailment.Proofs.FormulaSpelling
import Entailment.Proofs.BodyItems
import Entailment.Proofs.Enumeration
import Entailment.Proofs.ViablePrefix
import Entailment.Proofs.Conditions
import Entailment.Proofs.JointTruth
import Entailment.Proofs.MisplacedTokens
import Entailment.Proofs.ScanFaults
import Entailment.Proofs.AsciiSpelling
import Entailment.Proofs.AtomNames
import Entailment.Proofs.CursorMoves
import Entailment.Proofs.Descent
