import Dataflow.Graph.Lookup

namespace Dataflow.Graph

/-- Take a handle that was never given out. -/
def freshHandle : Action Graph Handle := fun g =>
  .ok g.nextHandle { g with nextHandle := g.nextHandle + 1 }

/-- Add an actor under a new name. -/
def addActor (name type : String) (execTime : Int) (auto : Bool) : Action Graph Actor := do
  if (← get).hasActor name then throw (.duplicateActor name)
  let id ← freshHandle
  let actor : Actor := { id, name, type, execTime, auto }
  modify fun g =>
    { g with
      actors := g.actors ++ [actor]
      types := if g.types.contains type then g.types else g.types ++ [type] }
  return actor

/-- Add a port to a type, with or without a rate. -/
def addPort (type name : String) (direction : Direction) (rate : Option String) :
    Action Graph Port := do
  if (← get).hasPort type name then throw (.duplicatePort type name)
  let id ← freshHandle
  modify fun g =>
    { g with
      ports := g.ports ++ [{ id, type, name, direction }]
      rates := g.rates ++ rate.toList.map (id, ·) }
  return { id, type, name, direction }

/-- Give a rate to a port that has none. -/
def setRate (p : Port) (rate : String) : Action Graph Unit := do
  if ((← get).rateText? p).isSome then throw (.rateFixed p.text)
  modify fun g => { g with rates := g.rates ++ [(p.id, rate)] }

/-- What a channel is given besides its ends. -/
structure ChannelSpec where
  initialTokens : Int := 0
  tokenSize : Int := 0
  name : Option String := none
  auto : Bool := false

/-- Add a channel between two ports, each given by the name of its actor and its own. -/
def addChannel (source target : String × String) (spec : ChannelSpec) : Action Graph Channel := do
  if spec.initialTokens < 0 then throw (.negativeTokens spec.initialTokens source target)
  let id ← freshHandle
  let source ← (← get).endpoint source .output
  let target ← (← get).endpoint target .input
  let channel : Channel :=
    { id, name := spec.name, initialTokens := spec.initialTokens.toNat, tokenSize := spec.tokenSize,
      auto := spec.auto, source, target }
  modify fun g =>
    { g with channels := g.channels ++ [channel], linked := g.linked ++ [channel] }
  return channel

/-- Add a port unless the type has one of that name. -/
def ensurePort (type name : String) (direction : Direction) (rate : String) :
    Action Graph Unit := do
  if !(← get).hasPort type name then
    let _ ← addPort type name direction (some rate)

/-- Connect two actors through ports that are numbered by the channels the actors have already.
A port that has such a name is used as it is. -/
def insertChannelBetween (source target : Actor) (sourceRate targetRate : String)
    (initialTokens tokenSize : Int) : Action Graph Channel := do
  let g ← get
  let sourcePort := s!"p_{(g.channelsOf source).length}"
  let targetPort := s!"p_{(g.channelsOf target).length}"
  ensurePort source.type sourcePort .output sourceRate
  ensurePort target.type targetPort .input targetRate
  addChannel (source.name, sourcePort) (target.name, targetPort)
    { initialTokens, tokenSize, name := some s!"{source.name}to{target.name}" }

/-- Add a modifier for a parameter that has none. -/
def addModifier (m : Modifier) : Action Graph Unit := do
  match (← get).modifiers.find? (·.parameter == m.parameter) with
  | some present => throw (.duplicateModifier m.parameter present.text)
  | none => modify fun g => { g with modifiers := g.modifiers ++ [m] }

/-- Take the ends of a channel off the actors. -/
def unlink (g : Graph) (id : Handle) : Graph :=
  { g with linked := g.linked.filter (·.id != id) }

/-- Take a channel off the list of channels. -/
def unlist (g : Graph) (id : Handle) : Graph :=
  { g with channels := g.channels.filter (·.id != id) }

/-- Remove a channel; nothing happens when it is gone already. -/
def removeChannel (g : Graph) (id : Handle) : Graph :=
  (g.unlink id).unlist id

/-- Remove an actor and every channel that ends at it. -/
def removeActor (g : Graph) (a : Actor) : Graph :=
  let g := (g.channelsOf a).foldl (fun g c => g.removeChannel c.id) g
  { g with actors := g.actors.filter (·.id != a.id) }

section Copies

/-- A graph without its actors and channels. -/
def bare (g : Graph) : Graph :=
  { empty g.name with
    ports := g.ports, rates := g.rates, modifiers := g.modifiers, nextHandle := g.nextHandle }

/-- Put an actor of the old graph into its copy. -/
def restoreActor (copy : Graph) (a : Actor) : Graph :=
  { copy with
    actors := copy.actors ++ [a]
    types := if copy.types.contains a.type then copy.types else copy.types ++ [a.type] }

/-- The end of a channel of the copy: the actor and the port of the copy with the handles of the old
ones. -/
def restoreEnd (copy : Graph) (e : Endpoint) : Except Failure Endpoint := do
  return ⟨← copy.actorAt e.actor.id, ← copy.portAt e.port.id⟩

/-- Put a channel of the old graph into its copy. A channel that has lost its ends has no actor. -/
def restoreChannel (g copy : Graph) (c : Channel) : Except Failure Graph := do
  if !g.isBound c then throw (.absent "actor")
  let channel :=
    { c with source := ← copy.restoreEnd c.source, target := ← copy.restoreEnd c.target }
  return { copy with
    channels := copy.channels ++ [channel], linked := copy.linked ++ [channel] }

/-- A copy that keeps all handles, made anew from the parts of the graph. It has the types of its
actors only. -/
def clone (g : Graph) : Except Failure Graph :=
  g.channels.foldlM g.restoreChannel (g.actors.foldl restoreActor g.bare)

end Copies

end Dataflow.Graph
