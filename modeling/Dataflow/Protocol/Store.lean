import Dataflow.Graph.Store
import Dataflow.Protocol.Sources
import Dataflow.Protocol.Users

namespace Dataflow

/-- What the protocol works on, with the graph as it is stored. -/
structure StoredWorkspace where
  store : Graph.Store
  protocol : Protocol
  journal : Journal

namespace StoredWorkspace

/-- Write a record into the journal. -/
def note (level : Level) (message : String) : Action StoredWorkspace Unit :=
  modify fun w => { w with journal := w.journal.note level message }

/-- Work on the stored graph. -/
def onStore {α : Type} (action : Action Graph.Store α) : Action StoredWorkspace α :=
  action.within (·.store) fun w store => { w with store }

/-- Change what is known about the parameters. -/
def updateProtocol (change : Protocol → Protocol) : Action StoredWorkspace Unit :=
  modify fun w => { w with protocol := change w.protocol }

/-- Add one period actor for an actor that sets a parameter, with a channel between them. -/
def insertPeriodActor (output type name : String) (feeder : Actor) :
    Action StoredWorkspace Actor := do
  let source ← onStore (Graph.Store.addActor name type 0 true)
  let _ ← onStore <| Graph.Store.addChannel (feeder.name, output) (source.name, "in")
    { name := some s!"{feeder.name}to{source.name}", auto := true }
  updateProtocol fun p => { p with feeders := p.feeders ++ [(source.id, feeder)] }
  return source

/-- The actors of a type. The type need not be known if it has no actors. -/
def feedersOf (s : Graph.Store) (type : String) : Except Failure (List Actor) :=
  if s.hasType type then s.actorsOf type else .ok []

/-- Add the period actors of one modifier. -/
def insertPeriodActorsOf (m : Modifier) : Action StoredWorkspace Unit := do
  let output := s!"_{m.parameter}_out"
  let type := periodType m.parameter
  let _ ← onStore (Graph.Store.addPort m.type output .output (some "1"))
  let _ ← onStore (Graph.Store.addPort type "in" .input (some m.period))
  let feeders ← feedersOf (← get).store m.type
  let sources ← feeders.zipIdx.mapM fun (feeder, index) =>
    insertPeriodActor output type (Workspace.periodName type feeders.length index) feeder
  updateProtocol fun p => { p with sources := Assoc.insert m.parameter sources p.sources }
  note .debug s!"Inserted {sources.length} period actor(s) for {m.text}"

/-- Add the period actors of all modifiers, once. -/
def insertPeriodActors : Action StoredWorkspace Unit := do
  if (← get).protocol.inserted then throw .alreadyInserted
  updateProtocol fun p => { p with inserted := true }
  (← get).store.modifiers.forM insertPeriodActorsOf

/-- Deliver a parameter to one user. -/
def connectUser (table : Repetitions) (parameter : String) (source : Actor)
    (sourceCount : Monomial) (index : Nat) (user : Actor) : Action StoredWorkspace Channel := do
  let ratio ← (← table.get user).div sourceCount
  let rate ← ratio.render
  let output ← onStore (Graph.Store.addPort source.type s!"out{index}" .output (some rate))
  let input := s!"_{parameter}_in"
  onStore (Graph.Store.ensurePort user.type input .input "1")
  onStore <| Graph.Store.addChannel (source.name, output.name) (user.name, input)
    { name := some s!"{source.name}to{user.name}", auto := true }

/-- Deliver a parameter to its users, other than its period actor and the actor that sets it. -/
def connectUsers (table : Repetitions) (parameter : String) (source : Actor)
    (sourceCount : Monomial) : (index : Nat) → List Actor → Action StoredWorkspace (List Channel)
  | _, [] => return []
  | index, user :: users => do
    if user.id = source.id ∨ ((← get).protocol.modifiedBy user).contains parameter then
      connectUsers table parameter source sourceCount index users
    else
      let channel ← connectUser table parameter source sourceCount index user
      return channel :: (← connectUsers table parameter source sourceCount (index + 1) users)

/-- Deliver one parameter. -/
def connectParameter (table : Repetitions) (parameter : String) :
    Action StoredWorkspace (List Channel) := do
  let p := (← get).protocol
  match p.source? parameter with
  | none => return []
  | some source =>
    connectUsers table parameter source (← table.get source) 0 (p.usersOf parameter)

/-- Deliver all parameters to their users, once. -/
def connectSources (table : Repetitions) : Action StoredWorkspace (List Channel) := do
  if (← get).protocol.connected then throw .alreadyConnected
  updateProtocol fun p => { p with connected := true }
  let created ← (← get).protocol.usedParameters.mapM (connectParameter table)
  note .debug s!"Connected parameter sources to users: {created.flatten.length} channels"
  return created.flatten

end StoredWorkspace

end Dataflow
