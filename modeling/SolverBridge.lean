import SolverBridge.Backend.Cbc
import SolverBridge.Backend.Gurobi
import SolverBridge.Backend.Scripted
import SolverBridge.Backend.Selection
import SolverBridge.Model.Build
import SolverBridge.Options.Settings
import SolverBridge.Proofs.Reformulation
import SolverBridge.Scalar.Exact
import SolverBridge.Session.Operation
import SolverBridge.Proofs.SplitValue
import SolverBridge.Proofs.Expansion
import SolverBridge.Proofs.Classification
import SolverBridge.Proofs.LoadPlan
import SolverBridge.Proofs.Moves
import SolverBridge.Proofs.CallOrder
import SolverBridge.Proofs.Resolution
import SolverBridge.Proofs.Loading
import SolverBridge.Proofs.TableResolution
import SolverBridge.Proofs.Objectives
import SolverBridge.Proofs.Interruption
import SolverBridge.Proofs.CanonicalObjectives
import SolverBridge.Proofs.Spelling
import SolverBridge.Proofs.PlanRuns
import SolverBridge.Proofs.Permissive
import SolverBridge.Proofs.RowOwners
import SolverBridge.Proofs.OptionStrings
import SolverBridge.Proofs.SpelledSettings
import SolverBridge.Proofs.LpProblem
import SolverBridge.Proofs.CbcColumns
import SolverBridge.Proofs.Deliveries
import SolverBridge.Proofs.Irreducible
import SolverBridge.Proofs.Refusals
import SolverBridge.Proofs.WholeRuns
import SolverBridge.Proofs.OptionStore
import SolverBridge.Proofs.Reassembly
import SolverBridge.Proofs.Respelling
import SolverBridge.Proofs.Multiples
import SolverBridge.Proofs.ScaledConstraints
import SolverBridge.Proofs.BoxValues
import SolverBridge.Proofs.LargestViolation
import SolverBridge.Proofs.AfterAbort
import SolverBridge.Proofs.IntegerTriggers
import SolverBridge.Proofs.Unsquaring
import SolverBridge.Proofs.QuadraticSupport
import SolverBridge.Proofs.Renaming
import SolverBridge.Proofs.RenamedResolution
import SolverBridge.Proofs.ColumnBinding
import SolverBridge.Proofs.RowFolds
import SolverBridge.Proofs.Columns
import SolverBridge.Proofs.CanonicalForms
import SolverBridge.Proofs.TermTotals
import SolverBridge.Proofs.OptionSessions
import SolverBridge.Proofs.CbcOptions
import SolverBridge.Proofs.ProductTotals
import SolverBridge.Proofs.ResolutionDepth
