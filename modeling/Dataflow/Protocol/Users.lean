import Dataflow.Workspace

namespace Dataflow.Workspace

/-- Note that an actor uses the parameters of a monomial. -/
def noteUses (a : Actor) (m : Monomial) : Action Workspace Unit :=
  updateProtocol (·.addUser a m.parameters)

/-- An actor uses the parameters of its firing count and of the rates at its links. -/
def identifyUsesOf (table : Repetitions) (a : Actor) : Action Workspace Unit := do
  noteUses a (← table.get a)
  let g := (← get).graph
  (g.allLinks a).forM fun link => do
    noteUses a (← onRates (RateCache.rate g link.near.port))

/-- Find the users of every parameter. -/
def identifyUsers (table : Repetitions) : Action Workspace Unit := do
  (← get).graph.actors.forM (identifyUsesOf table)

/-- Deliver a parameter to one user. The period actor sends as many values as the user fires in one
period. -/
def connectUser (table : Repetitions) (parameter : String) (source : Actor)
    (sourceCount : Monomial) (index : Nat) (user : Actor) : Action Workspace Channel := do
  let ratio ← (← table.get user).div sourceCount
  let rate ← ratio.render
  let output ← onGraph (Graph.addPort source.type s!"out{index}" .output (some rate))
  let input := s!"_{parameter}_in"
  onGraph (Graph.ensurePort user.type input .input "1")
  onGraph <| Graph.addChannel (source.name, output.name) (user.name, input)
    { name := some s!"{source.name}to{user.name}", auto := true }

/-- Deliver a parameter to its users, other than its period actor and the actor that sets it. The
new ports of the period actor are numbered from `index` on. -/
def connectUsers (table : Repetitions) (parameter : String) (source : Actor)
    (sourceCount : Monomial) : (index : Nat) → List Actor → Action Workspace (List Channel)
  | _, [] => return []
  | index, user :: users => do
    if user.id = source.id ∨ ((← get).protocol.modifiedBy user).contains parameter then
      connectUsers table parameter source sourceCount index users
    else
      let channel ← connectUser table parameter source sourceCount index user
      return channel :: (← connectUsers table parameter source sourceCount (index + 1) users)

/-- Deliver one parameter. A parameter without a period actor needs no delivery. -/
def connectParameter (table : Repetitions) (parameter : String) :
    Action Workspace (List Channel) := do
  let p := (← get).protocol
  match p.source? parameter with
  | none => return []
  | some source =>
    connectUsers table parameter source (← table.get source) 0 (p.usersOf parameter)

/-- Deliver all parameters to their users, once. -/
def connectSources (table : Repetitions) : Action Workspace (List Channel) := do
  if (← get).protocol.connected then throw .alreadyConnected
  updateProtocol fun p => { p with connected := true }
  let created ← (← get).protocol.usedParameters.mapM (connectParameter table)
  note .debug s!"Connected parameter sources to users: {created.flatten.length} channels"
  return created.flatten

end Dataflow.Workspace
