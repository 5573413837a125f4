import Dataflow.Workspace

namespace Dataflow.Workspace

open Text

/-- Add one period actor for an actor that sets a parameter, with a channel between them. -/
def insertPeriodActor (output type name : String) (feeder : Actor) : Action Workspace Actor := do
  let source ← onGraph (Graph.addActor name type 0 true)
  let _ ← onGraph <| Graph.addChannel (feeder.name, output) (source.name, "in")
    { name := some s!"{feeder.name}to{source.name}", auto := true }
  updateProtocol fun p => { p with feeders := p.feeders ++ [(source.id, feeder)] }
  return source

/-- The name of a period actor. The actors of one parameter are numbered when there are several. -/
def periodName (type : String) (count index : Nat) : String :=
  if count = 1 then type else s!"{type}#{index}"

/-- Add the period actors of one modifier: the modifying actors feed them at rate one, and they
consume a period at a time. -/
def insertPeriodActorsOf (m : Modifier) : Action Workspace Unit := do
  let output := s!"_{m.parameter}_out"
  let type := periodType m.parameter
  let _ ← onGraph (Graph.addPort m.type output .output (some "1"))
  let _ ← onGraph (Graph.addPort type "in" .input (some m.period))
  let feeders := (← get).graph.instances m.type
  let sources ← feeders.zipIdx.mapM fun (feeder, index) =>
    insertPeriodActor output type (periodName type feeders.length index) feeder
  updateProtocol fun p => { p with sources := Assoc.insert m.parameter sources p.sources }
  note .debug s!"Inserted {sources.length} period actor(s) for {m.text}"

/-- Add the period actors of all modifiers, once. -/
def insertPeriodActors : Action Workspace Unit := do
  if (← get).protocol.inserted then throw .alreadyInserted
  updateProtocol fun p => { p with inserted := true }
  (← get).graph.modifiers.forM insertPeriodActorsOf

/-- Settle who sets a parameter, which must be a single actor. -/
def settleModifier (parameter : String) (sources : List Actor) : Action Workspace Unit := do
  let w ← get
  let m ← w.graph.modifierOf parameter
  let feeders ← sources.mapM fun source => (w.protocol.feederOf source : Action Workspace Actor)
  match feeders with
  | [feeder] => updateProtocol (·.addModified feeder parameter)
  | _ => throw (.ambiguousModifier parameter m.type (feeders.map (·.name)))

/-- Find the parameters in the rate of a port. -/
def collectOccurrences (p : Port) : Action Workspace Unit := do
  match ← onRates (RateCache.rate? (← get).graph p) with
  | none => return
  | some rate => updateProtocol fun protocol => rate.parameters.foldl Protocol.addOccurrence protocol

/-- Find out where every parameter comes from. -/
def identifySources : Action Workspace Unit := do
  (← get).protocol.sources.forM fun entry => settleModifier entry.1 entry.2
  (← get).graph.ports.forM collectOccurrences
  let environment := (← get).protocol.environment
  if !environment.isEmpty then
    note .debug s!"Environment parameters: {quoteList environment}"

end Dataflow.Workspace
