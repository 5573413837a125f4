import Dataflow.Proofs.Analysis.Balance
import Dataflow.Proofs.Analysis.Graphs
import Dataflow.Proofs.Protocol.Failures

namespace Dataflow

open Dataflow.Action

namespace Failure

/-- Whether an analysis that was not carried out before may end in a failure. -/
def mayEscape : Failure → Bool
  -- The graph lacks what is asked for, or has already what is to be added.
  | .duplicateActor _ | .unknownActor _ | .duplicatePort .. | .unknownPort ..
  | .wrongDirection .. | .rateMissing _ => true
  | .zeroRate .. | .malformedRate .. => true
  | .ambiguousModifier .. => true
  | .disconnected .. => true
  | .numeralTooLong _ | .numberTooLarge => true
  | _ => false

variable {e : Failure}

end Failure

namespace Graph

variable {g : Graph} {e : Failure}

end Graph

/-- Whether the analysis of a graph may end in a failure. A parameter occurs too often to be written
only where the rates of the graph have as many factors. -/
def Graph.MayEscape (g : Graph) (e : Failure) : Prop :=
  e.mayEscape = true ∨ e = .repetitionTooLong ∧ Monomial.repetitionLimit ≤ g.factorCount

private theorem Graph.TooLarge.mayEscape {g : Graph} {e : Failure} (h : g.TooLarge e) :
    g.MayEscape e := by
  obtain rfl | h := h
  · exact .inl rfl
  · exact .inr h

namespace Pass

variable {target : Pass} {passes : List Pass} {run reached final : Run} {e : Failure}

end Pass

namespace Run

end Run

namespace Analyzer

open Workspace

variable {origin : Graph} {config : Config} {run run' : Run} {e : Failure}

end Analyzer

end Dataflow
