import Dataflow.Application
import Dataflow.Journal.Files
import Dataflow.Proofs.Balance.Minimality
import Dataflow.Proofs.Balance.Refutation
import Dataflow.Proofs.Liveness.Acyclic
import Dataflow.Proofs.Graph.Growth
import Dataflow.Proofs.Workspace
import Dataflow.Proofs.Schedule.Period
import Dataflow.Proofs.Protocol.Settlement
import Dataflow.Proofs.Protocol.Users
import Dataflow.Proofs.Analysis.Preparation
import Dataflow.Proofs.Text.Order
import Dataflow.Proofs.Protocol.Safety
import Dataflow.Proofs.Analysis.Safety
import Dataflow.Proofs.Arithmetic.ResidueClass
import Dataflow.Proofs.Arithmetic.TrialDivision
import Dataflow.Proofs.Arithmetic.Power
import Dataflow.Proofs.Arithmetic.Primality
import Dataflow.Proofs.Arithmetic.Factorization
import Dataflow.Proofs.Monomial.Coefficient
import Dataflow.Proofs.Monomial.Divisors
import Dataflow.Proofs.Balance.Legible
import Dataflow.Proofs.Protocol.Wiring
import Dataflow.Proofs.Protocol.WiringFailures
import Dataflow.Proofs.Analysis.Wiring
import Dataflow.Proofs.Balance.Coverage
import Dataflow.Proofs.Balance.Completeness
import Dataflow.Proofs.Analysis.Success
import Dataflow.Proofs.Analysis.Balance
import Dataflow.Proofs.Analysis.Failures
import Dataflow.Proofs.Balance.Failures
import Dataflow.Proofs.Balance.Starts
import Dataflow.Proofs.Balance.Totality
import Dataflow.Proofs.Graph.Pendant
import Dataflow.Proofs.Balance.Pendant
import Dataflow.Proofs.Protocol.Operations
import Dataflow.Proofs.Protocol.PeriodActors
import Dataflow.Proofs.Graph.Coherence
import Dataflow.Proofs.Protocol.Histories
import Dataflow.Proofs.Graph.Copy
import Dataflow.Proofs.Protocol.Copy
import Dataflow.Proofs.Analysis.Copy
import Dataflow.Proofs.Analysis.Findings
import Dataflow.Proofs.Analysis.Coherence
import Dataflow.Proofs.Analysis.Stopping
import Dataflow.Proofs.Analysis.Extension
import Dataflow.Proofs.Recursion
import Dataflow.Proofs.Ratio.Laws
import Dataflow.Proofs.Balance.Recursion
import Dataflow.Proofs.Balance.Component
import Dataflow.Proofs.Liveness.Recursion
import Dataflow.Proofs.Monomial.Divisibility
import Dataflow.Proofs.Factors.Histories
import Dataflow.Proofs.Monomial.Grammar
import Dataflow.Proofs.Analysis.Parameters
import Dataflow.Proofs.Graph.Connection
import Dataflow.Proofs.Application.Histories
import Dataflow.Proofs.Rates.Histories
import Dataflow.Proofs.Protocol.Roster
import Dataflow.Proofs.Graph.Removal
