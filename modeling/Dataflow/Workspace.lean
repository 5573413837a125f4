import Dataflow.Balance.Solver
import Dataflow.Graph.Edit
import Dataflow.Journal.Basic
import Dataflow.Liveness
import Dataflow.Protocol.Basic

namespace Dataflow

open Text

/-- A graph under analysis, with its parsed rates, what is known about its parameters, and the
journal. -/
structure Workspace where
  graph : Graph
  rates : RateCache
  protocol : Protocol
  journal : Journal

namespace Workspace

/-- Write a record into the journal. -/
def note (level : Level) (message : String) : Action Workspace Unit :=
  modify fun w => { w with journal := w.journal.note level message }

/-- Work on the graph. -/
def onGraph {α : Type} (action : Action Graph α) : Action Workspace α :=
  action.within (·.graph) fun w graph => { w with graph }

/-- Work on the parsed rates. -/
def onRates {α : Type} (action : Action RateCache α) : Action Workspace α :=
  action.within (·.rates) fun w rates => { w with rates }

/-- Change what is known about the parameters. -/
def updateProtocol (change : Protocol → Protocol) : Action Workspace Unit :=
  modify fun w => { w with protocol := change w.protocol }

/-- Parse all rates of the graph. -/
def parseRates : Action Workspace Unit := do
  onRates (RateCache.parseAll (← get).graph)
  note .debug s!"Parsed {(← get).rates.size} port rates"

/-- Record how the balance equations came out. -/
def noteBalance (g : Graph) (start : Actor) :
    Verdict Repetitions Inconsistency → Action Workspace Unit
  | .success table => do
    note .debug ("Balance equations solved: " ++ (← table.render g))
  | .violated evidence => do
    let ratio ← evidence.ratio.render
    note .debug s!"Balance equation violated on {g.channelText evidence.reference}: ratio {ratio}"
    let report ← evidence.report g
    note .warning s!"Rate inconsistency found from start actor {start.name}:\n{report}"

/-- Solve the balance equations, from the given actor or from the first one. -/
def solve (start : Option Actor) : Action Workspace (Verdict Repetitions Inconsistency) := do
  let g := (← get).graph
  let verdict ← onRates (Balance.solve g start)
  match g.actors.head? with
  | none => return verdict
  | some first =>
    noteBalance g (start.getD first) verdict
    return verdict

/-- Look for a directed cycle. -/
def checkLiveness : Action Workspace (Verdict Unit DirectedCycle) := do
  match Liveness.check (← get).graph with
  | .success finished =>
    note .debug s!"Graph is acyclic, {finished.length} actors checked"
    return .success ()
  | .violated cycle =>
    note .warning s!"Graph is not live: {cycle.report}"
    return .violated cycle

/-- Write a repetition table into the journal. -/
def noteTable (table : Repetitions) : Action Workspace Unit := do
  note .info ("Solutions: " ++ (← table.render (← get).graph))

end Workspace

end Dataflow
