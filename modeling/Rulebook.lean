import Rulebook.Demo
import Rulebook.Main
import Rulebook.Proofs.Chain.Reduce
import Rulebook.Proofs.Chain.Written
import Rulebook.Proofs.Expression.Joined
import Rulebook.Proofs.Expression.Leaves
import Rulebook.Proofs.Expression.Prefix
import Rulebook.Proofs.Expression.Reads
import Rulebook.Proofs.Formula.Written
import Rulebook.Proofs.Matcher.Rule
import Rulebook.Proofs.Matcher.Truth
import Rulebook.Proofs.Matcher.Written
import Rulebook.Proofs.Formula.Rule
import Rulebook.Proofs.Nesting.Limit
import Rulebook.Proofs.Nesting.Parentheses
import Rulebook.Proofs.Nesting.Reduction
import Rulebook.Proofs.Nesting.Written
import Rulebook.Proofs.Number.TooLarge
import Rulebook.Proofs.Number.Written
import Rulebook.Proofs.Reader.Written
import Rulebook.Proofs.Report.Combined
import Rulebook.Proofs.Report.Shadowed
import Rulebook.Proofs.Report.Variables
import Rulebook.Proofs.Report.Warnings
import Rulebook.Proofs.Request.Checks
import Rulebook.Proofs.Request.Fits
import Rulebook.Proofs.Service.Answer
import Rulebook.Proofs.Store.Adding
import Rulebook.Proofs.Store.Batch
import Rulebook.Proofs.Store.Limit
import Rulebook.Proofs.Store.Outcome
import Rulebook.Proofs.Store.Kinds
import Rulebook.Proofs.Store.Session
import Rulebook.Proofs.Store.Layers
import Rulebook.Proofs.CommandLine.Agreement
import Rulebook.Proofs.CommandLine.Loading
import Rulebook.Proofs.Value.Fold
import Rulebook.Proofs.Value.Nodes
import Rulebook.Proofs.Expression.Metrics
import Rulebook.Proofs.Expression.OfForm
import Rulebook.Proofs.Value.Equal
import Rulebook.Proofs.Expression.Shown
import Rulebook.Proofs.Matcher.StandIns
