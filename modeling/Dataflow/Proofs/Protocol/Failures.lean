import Dataflow.Proofs.Balance.Failures
import Dataflow.Proofs.Graph.Refusals
import Dataflow.Proofs.Monomial.Unreadable
import Dataflow.Proofs.Protocol.Settlement
import Dataflow.Proofs.Protocol.Users

namespace Dataflow

open Dataflow.Action

namespace RateCache

variable {g : Graph}

end RateCache

namespace Workspace

variable {w w' : Workspace} {e : Failure}

section Insertion

end Insertion

variable {g : Graph} {feeders : List (Handle × Actor)}

section Settlement

variable {parameter : String} {sources : List Actor}

end Settlement

section Uses

variable {table : Repetitions}

end Uses

end Workspace

end Dataflow
