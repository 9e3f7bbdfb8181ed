import Reckoner.Main
import Reckoner.Stock
import Reckoner.Proofs.Lexer.Writing
import Reckoner.Proofs.Parser.Exact
import Reckoner.Proofs.Parser.Printing
import Reckoner.Proofs.Parser.FirstFault
import Reckoner.Proofs.Evaluate.InPlace
import Reckoner.Proofs.Evaluate.FirstViolation
import Reckoner.Proofs.Evaluate.Noninterference
import Reckoner.Proofs.Evaluate.Caller
import Reckoner.Proofs.Scope.History
import Reckoner.Proofs.Parser.Sharing
import Reckoner.Proofs.Evaluate.DeadBranches
import Reckoner.Proofs.Evaluate.Tracing
import Reckoner.Proofs.Parser.OnDemand
import Reckoner.Proofs.Command.Outcomes
import Reckoner.Proofs.Parser.CallSyntax
import Reckoner.Proofs.Evaluate.NumberCalls
import Reckoner.Proofs.Command.Definitions
import Reckoner.Proofs.Command.Sources
import Reckoner.Proofs.Parser.Scripts
