import Dataflow.Balance.Inconsistency
import Dataflow.Liveness
import Dataflow.Protocol.Safety

namespace Dataflow

/-- A reason why a graph may not run. -/
inductive Violation where
  | inconsistency (evidence : Inconsistency)
  | misuse (evidence : Misuse)
  | cycle (evidence : DirectedCycle)

namespace Violation

/-- The report of a violation. -/
def report (g : Graph) : Violation → Except Failure String
  | inconsistency evidence => evidence.report g
  | misuse evidence => evidence.report
  | cycle evidence => .ok evidence.report

/-- The failure with which a violation is raised. -/
def failure (g : Graph) : Violation → Except Failure Failure
  | inconsistency evidence => evidence.failure g
  | misuse evidence => evidence.failure
  | cycle evidence => .ok evidence.failure

end Violation

/-- Whether a finding makes the analysis fail. -/
inductive Severity where
  | error
  | warning
  deriving DecidableEq

/-- A finding with a code, a message, the place that it is about and the violation that it
reports. -/
structure Diagnostic where
  severity : Severity
  code : String
  message : String
  location : Option String
  payload : Option Violation

namespace Diagnostic

/-- Whether a finding is an error. -/
def isError (d : Diagnostic) : Bool :=
  d.severity = .error

/-- A finding that makes the analysis fail. -/
def error (code message : String) (location : Option String) (payload : Option Violation) :
    Diagnostic :=
  ⟨.error, code, message, location, payload⟩

/-- A finding to be aware of. -/
def warning (code message : String) (location : Option String) : Diagnostic :=
  ⟨.warning, code, message, location, none⟩

/-- The finding in one line of a report. -/
def line (d : Diagnostic) : String :=
  s!"  [{d.code}] {d.message} @ " ++ d.location.getD "None"

end Diagnostic

end Dataflow
