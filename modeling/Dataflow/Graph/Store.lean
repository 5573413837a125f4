import Dataflow.Graph.Tables

namespace Dataflow.Graph

/-- The tables of a graph with the handle to give out next. -/
@[ext]
structure Store extends Tables where
  nextHandle : Handle

/-- The store that agrees with a graph. -/
def store (g : Graph) : Store :=
  { g.tables with nextHandle := g.nextHandle }

namespace Store

/-- A store without anything in it. -/
def empty (name : Option String) : Store :=
  { Tables.empty name with nextHandle := 0 }

/-- Change the tables. -/
def update (change : Tables → Tables) : Action Store Unit :=
  modify fun s => { s with toTables := change s.toTables }

/-- Take something off the tables, which fails when it is not there. -/
def attempt (change : Tables → Option Tables) : Action Store Unit := fun s =>
  match change s.toTables with
  | some t => .ok () { s with toTables := t }
  | none => .error .notListed s

/-- Take a handle that was never given out. -/
def freshHandle : Action Store Handle := fun s =>
  .ok s.nextHandle { s with nextHandle := s.nextHandle + 1 }

/-- Add an actor under a new name. -/
def addActor (name type : String) (execTime : Int) (auto : Bool) : Action Store Actor := do
  if ((← get).named name).isSome then throw (.duplicateActor name)
  let id ← freshHandle
  let actor : Actor := { id, name, type, execTime, auto }
  update (·.withActor actor)
  return actor

/-- Add a port to a type, with or without a rate. -/
def addPort (type name : String) (direction : Direction) (rate : Option String) :
    Action Store Port := do
  if ((← get).keyed type name).isSome then throw (.duplicatePort type name)
  let id ← freshHandle
  let port : Port := { id, type, name, direction }
  update (·.withPort port rate)
  return port

/-- Give a rate to a port that has none. -/
def setRate (p : Port) (rate : String) : Action Store Unit := do
  if ((← get).rates p.id).isSome then throw (.rateFixed p.text)
  update (·.withRate p rate)

/-- Add a channel between two ports, each given by the name of its actor and its own. -/
def addChannel (source target : String × String) (spec : ChannelSpec) : Action Store Channel := do
  if spec.initialTokens < 0 then throw (.negativeTokens spec.initialTokens source target)
  let id ← freshHandle
  let source ← (← get).endpoint source .output
  let target ← (← get).endpoint target .input
  let channel : Channel :=
    { id, name := spec.name, initialTokens := spec.initialTokens.toNat, tokenSize := spec.tokenSize,
      auto := spec.auto, source, target }
  update (·.withChannel channel)
  return channel

/-- Add a port unless the type has one of that name. -/
def ensurePort (type name : String) (direction : Direction) (rate : String) :
    Action Store Unit := do
  if !((← get).keyed type name).isSome then
    let _ ← addPort type name direction (some rate)

/-- Connect two actors through ports that are numbered by the channels the actors have already. -/
def insertChannelBetween (source target : Actor) (sourceRate targetRate : String)
    (initialTokens tokenSize : Int) : Action Store Channel := do
  let s ← get
  let sourcePort := s!"p_{(s.channelsOf source).length}"
  let targetPort := s!"p_{(s.channelsOf target).length}"
  ensurePort source.type sourcePort .output sourceRate
  ensurePort target.type targetPort .input targetRate
  addChannel (source.name, sourcePort) (target.name, targetPort)
    { initialTokens, tokenSize, name := some s!"{source.name}to{target.name}" }

/-- Add a modifier for a parameter that has none. -/
def addModifier (m : Modifier) : Action Store Unit := do
  match (← get).modifiers.find? (·.parameter == m.parameter) with
  | some present => throw (.duplicateModifier m.parameter present.text)
  | none => update fun t => { t with modifiers := t.modifiers ++ [m] }

/-- Remove a channel. One that has lost its ends is taken out of the arena only. -/
def removeChannel (c : Channel) : Action Store Unit := do
  if (← get).bound c.id then
    attempt (·.dropLink ⟨c, .output⟩)
    attempt (·.dropLink ⟨c, .input⟩)
    update (·.unbind c)
  update (·.unlist c)

/-- Remove the channel of a handle. A channel that is gone already has no ends and is not in the
arena. -/
def removeChannelAt (id : Handle) : Action Store Unit := do
  match (← get).channels.find? (·.id == id) with
  | some c => removeChannel c
  | none => return ()

/-- Remove an actor, after the channels that it has at the beginning. -/
def removeActor (a : Actor) : Action Store Unit := do
  ((← get).channelsOf a).forM removeChannel
  attempt (·.leaveType a)
  attempt (·.freeName a)
  attempt (·.leaveArena a)

/-- Go on with a copy. -/
def restart : Action Store Unit := do
  let copy ← (← get).clone
  update fun _ => copy

end Store

end Dataflow.Graph
