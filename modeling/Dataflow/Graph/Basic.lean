import Dataflow.Action

namespace Dataflow

/-- The identity of an actor, a port or a channel within its graph. -/
abbrev Handle := Nat

/-- A node of the graph. Its ports are those of its type. -/
structure Actor where
  id : Handle
  name : String
  type : String
  execTime : Int
  /-- Set for the actors that an analysis adds. -/
  auto : Bool
  deriving DecidableEq

/-- A port, shared by all actors of a type. -/
structure Port where
  id : Handle
  type : String
  name : String
  direction : Direction
  deriving DecidableEq

/-- A port of one actor. -/
structure Endpoint where
  actor : Actor
  port : Port
  deriving DecidableEq

/-- A queue of tokens from the source to the target. -/
structure Channel where
  id : Handle
  name : Option String
  initialTokens : Nat
  tokenSize : Int
  auto : Bool
  source : Endpoint
  target : Endpoint
  deriving DecidableEq

/-- A channel seen from one of its ends: an output at its source, an input at its target. -/
structure Link where
  channel : Channel
  direction : Direction
  deriving DecidableEq

/-- Every actor of the type `type` sets the parameter once in `period` firings. -/
structure Modifier where
  type : String
  parameter : String
  kind : String
  period : String
  deriving DecidableEq

/-- A graph. Every list is in insertion order. -/
structure Graph where
  name : Option String
  actors : List Actor
  ports : List Port
  /-- The rates of the ports that have one. -/
  rates : List (Handle × String)
  channels : List Channel
  /-- The channels that have their ends at the actors. They are the channels of the graph, unless
  one of them was only unlinked or only unlisted. -/
  linked : List Channel
  modifiers : List Modifier
  /-- The types that have had an actor. -/
  types : List String
  nextHandle : Handle

namespace Actor

/-- The name of an actor with its type. -/
def text (a : Actor) : String :=
  s!"{a.name}@{a.type}@Actor"

end Actor

namespace Port

/-- The name of a port with its type and direction. -/
def text (p : Port) : String :=
  s!"{p.name}@{p.type}@Port({p.direction.word})"

end Port

namespace Endpoint

/-- An actor and a port with a point between. -/
def text (e : Endpoint) : String :=
  s!"{e.actor.name}.{e.port.name}"

end Endpoint

namespace Channel

/-- The end of a channel at which the port has the given direction. -/
def endpoint (c : Channel) : Direction → Endpoint
  | .output => c.source
  | .input => c.target

/-- The two ends of a channel with an arrow between. -/
def text (c : Channel) : String :=
  s!"{c.source.text} --> {c.target.text}"

end Channel

namespace Link

/-- The end of the channel that is looked from. -/
def near (l : Link) : Endpoint :=
  l.channel.endpoint l.direction

/-- The other end of the channel. -/
def far (l : Link) : Endpoint :=
  l.channel.endpoint l.direction.opposite

/-- The link that looks at the channel from the other end. -/
def opposite (l : Link) : Link :=
  ⟨l.channel, l.direction.opposite⟩

@[simp]
theorem opposite_opposite (l : Link) : l.opposite.opposite = l := by
  simp [opposite]

end Link

namespace Modifier

/-- What a modifier sets, and at which type. -/
def text (m : Modifier) : String :=
  s!"(set {m.parameter}:{m.kind}[{m.period}])@{m.type}"

end Modifier

namespace Graph

/-- A graph without anything in it. -/
def empty (name : Option String) : Graph where
  name := name
  actors := []
  ports := []
  rates := []
  channels := []
  linked := []
  modifiers := []
  types := []
  nextHandle := 0

end Graph

end Dataflow
