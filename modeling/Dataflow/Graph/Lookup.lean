import Dataflow.Graph.Basic

namespace Dataflow.Graph

variable (g : Graph)

section Actors

/-- Whether an actor has the name. -/
def hasActor (name : String) : Bool :=
  g.actors.any (·.name == name)

/-- The actor of a name. -/
def actorNamed (name : String) : Except Failure Actor :=
  match g.actors.find? (·.name == name) with
  | some a => .ok a
  | none => .error (.unknownActor name)

/-- The actor of a handle. -/
def actorAt (handle : Int) : Except Failure Actor :=
  match g.actors.find? fun a => (a.id : Int) == handle with
  | some a => .ok a
  | none => .error (.unknownHandle handle)

/-- The actors of a type. -/
def instances (type : String) : List Actor :=
  g.actors.filter (·.type == type)

/-- Whether a type has an actor. -/
def hasType (type : String) : Bool :=
  g.actors.any (·.type == type)

/-- The actors of a type that has had one at some time. -/
def actorsOf (type : String) : Except Failure (List Actor) :=
  if g.types.contains type then .ok (g.instances type) else .error (.unknownType type)

end Actors

section Ports

/-- Whether a type has a port of the name. -/
def hasPort (type name : String) : Bool :=
  g.ports.any fun p => p.type == type && p.name == name

/-- The port of a name at a type. -/
def portNamed (type name : String) : Except Failure Port :=
  match g.ports.find? fun p => p.type == type && p.name == name with
  | some p => .ok p
  | none => .error (.unknownPort type name)

/-- The port of a handle. -/
def portAt (handle : Int) : Except Failure Port :=
  match g.ports.find? fun p => (p.id : Int) == handle with
  | some p => .ok p
  | none => .error (.unknownHandle handle)

/-- The rate of a port, as it was written. -/
def rateText? (p : Port) : Option String :=
  g.rates.lookup p.id

/-- The port with a name at the actor with a name. It must have the given direction. -/
def endpoint (place : String × String) (direction : Direction) : Except Failure Endpoint := do
  let actor ← g.actorNamed place.1
  let port ← g.portNamed actor.type place.2
  if port.direction = direction then return ⟨actor, port⟩
  else throw (.wrongDirection direction place.1 place.2)

end Ports

section Channels

/-- Whether a channel still has its ends. -/
def isBound (c : Channel) : Bool :=
  g.linked.any (·.id == c.id)

/-- The channel of a handle. -/
def channelAt (handle : Int) : Except Failure Channel :=
  match g.channels.find? fun c => (c.id : Int) == handle with
  | some c => .ok c
  | none => .error (.unknownHandle handle)

/-- The first channel of a name. -/
def channelNamed? (name : Option String) : Option Channel :=
  g.channels.find? (·.name == name)

/-- The channels from one actor to another. -/
def channelsBetween (source target : Actor) : List Channel :=
  g.channels.filter fun c => c.source.actor.id == source.id && c.target.actor.id == target.id

/-- The text of a channel; a channel that was removed has lost its ends. -/
def channelText (c : Channel) : String :=
  if g.isBound c then c.text else "None --> None"

/-- A link of a channel that still has its ends. -/
def linkOf (c : Channel) (direction : Direction) : Except Failure Link :=
  if g.isBound c then .ok ⟨c, direction⟩ else .error (.unboundChannel c.id)

/-- The actor at the other end of a channel. For a channel from an actor to itself that is the
actor. -/
def oppositeActor (c : Channel) (a : Actor) : Except Failure Actor :=
  if !g.isBound c then .error (.unboundChannel c.id)
  else if c.source.actor.id = a.id then .ok c.target.actor
  else if c.target.actor.id = a.id then .ok c.source.actor
  else .error (.notAtChannel a.text c.text)

end Channels

section Links

/-- The links of an actor in one direction. -/
def links (a : Actor) (direction : Direction) : List Link :=
  (g.linked.filter fun c => (c.endpoint direction).actor.id == a.id).map (⟨·, direction⟩)

/-- All links of an actor, the inputs first. -/
def allLinks (a : Actor) : List Link :=
  g.links a .input ++ g.links a .output

/-- The channels of an actor in the order of its links. A channel from the actor to itself stands
at its input only. -/
def channelsOf (a : Actor) : List Channel :=
  (g.linked.filter fun c => c.target.actor.id == a.id) ++
    g.linked.filter fun c => c.source.actor.id == a.id && c.target.actor.id != a.id

end Links

/-- The modifier of a parameter. -/
def modifierOf (parameter : String) : Except Failure Modifier :=
  match g.modifiers.find? (·.parameter == parameter) with
  | some m => .ok m
  | none => .error (.unknownModifier parameter)

section Text

/-- A missing rate is written as `None`. -/
def rateText (p : Port) : String :=
  (g.rateText? p).getD "None"

/-- The line of an actor. -/
def actorLine (a : Actor) : String :=
  s!"  actor {a.name}@{a.type}" ++ if a.auto then " (auto)" else ""

/-- The line of a channel, with the rates at its ends and its tokens. -/
def channelLine (c : Channel) : String :=
  s!"  channel {c.text} rates [{g.rateText c.source.port}] -> [{g.rateText c.target.port}]" ++
    s!" tokens={c.initialTokens}"

/-- The line of a modifier. -/
def modifierLine (m : Modifier) : String :=
  s!"  modifier {m.text}"

/-- The name of the graph in its headline. -/
def title : String :=
  match g.name with
  | none => "<unnamed>"
  | some name => if name = "" then "<unnamed>" else name

/-- The graph, one line for everything in it. -/
def dump : String :=
  "\n".intercalate <|
    s!"Graph {g.title}: {g.actors.length} actors, {g.channels.length} channels" ::
      (g.actors.map actorLine ++ g.channels.map g.channelLine ++ g.modifiers.map modifierLine)

end Text

end Dataflow.Graph
