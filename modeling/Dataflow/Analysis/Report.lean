import Dataflow.Analysis.Diagnostic
import Dataflow.Balance.Repetitions
import Dataflow.Protocol.Basic
import Dataflow.Rates

namespace Dataflow

/-- What an analysis found out about a graph. -/
structure Report where
  success : Bool
  diagnostics : List Diagnostic
  violations : List Violation
  table : Option Repetitions
  protocol : Protocol
  rates : RateCache

namespace Report

/-- The findings that make an analysis fail. -/
def errors (diagnostics : List Diagnostic) : List Diagnostic :=
  diagnostics.filter (·.isError)

/-- The findings that do not. -/
def warnings (diagnostics : List Diagnostic) : List Diagnostic :=
  diagnostics.filter fun d => !d.isError

/-- A headed list of findings, or nothing when there are none. -/
def findings (heading : String) (diagnostics : List Diagnostic) : List String :=
  if diagnostics.isEmpty then [] else ("\n" ++ heading) :: diagnostics.map (·.line)

/-- The text of a report: counts, the repetition table if there is one, errors and warnings. -/
def write (g : Graph) (diagnostics : List Diagnostic) (table : Option Repetitions) :
    Except Failure String := do
  let errors := errors diagnostics
  let warnings := warnings diagnostics
  let solutions ← match table with
    | none => pure []
    | some table => do pure ["Solutions: " ++ (← table.render g)]
  return "\n".intercalate <|
    [ "SPDF Analysis Report",
      "====================",
      s!"Actors: {g.actors.length}",
      s!"Channels: {g.channels.length}",
      s!"Errors: {errors.length}",
      s!"Warnings: {warnings.length}" ] ++
      solutions ++ findings "Errors:" errors ++ findings "Warnings:" warnings

/-- The text of a report on a graph as it is now. -/
def text (report : Report) (g : Graph) : Except Failure String :=
  write g report.diagnostics report.table

/-- The repetition table, which is there unless the balance equations failed. -/
def solutions (report : Report) : Except Failure Repetitions :=
  match report.table with
  | some table => .ok table
  | none => .error .unsolved

end Report

end Dataflow
