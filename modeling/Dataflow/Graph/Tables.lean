import Dataflow.Graph.Edit

namespace Dataflow.Graph

/-- A graph as it is stored: arenas of actors, ports and channels, and the tables by which things are
found in them. Every table is kept by itself, so two of them might disagree. -/
@[ext]
structure Tables where
  name : Option String
  actors : List Actor
  ports : List Port
  /-- The rate of the port of a handle. -/
  rates : Handle → Option String
  channels : List Channel
  modifiers : List Modifier
  /-- The handle of the actor of a name. -/
  named : String → Option Handle
  /-- The handle of the port of a type and a name. -/
  keyed : String → String → Option Handle
  /-- The handles of the actors of a type that has had one. -/
  instances : String → Option (List Handle)
  /-- The links of the actor of a handle in a direction. -/
  links : Handle → Direction → List Link
  /-- Whether the channel of a handle has its ends. -/
  bound : Handle → Bool

namespace Tables

/-- Tables without anything in them. -/
def empty (name : Option String) : Tables where
  name := name
  actors := []
  ports := []
  rates := fun _ => none
  channels := []
  modifiers := []
  named := fun _ => none
  keyed := fun _ _ => none
  instances := fun _ => none
  links := fun _ _ => []
  bound := fun _ => false

section Lookups

variable (t : Tables)

/-- The actor of a handle. -/
def actorAt (id : Handle) : Except Failure Actor :=
  match t.actors.find? (·.id == id) with
  | some a => .ok a
  | none => .error (.unknownHandle id)

/-- The port of a handle. -/
def portAt (id : Handle) : Except Failure Port :=
  match t.ports.find? (·.id == id) with
  | some p => .ok p
  | none => .error (.unknownHandle id)

/-- The actor of a name. A handle without an actor in the index of names is a failure. -/
def actorNamed (name : String) : Except Failure Actor :=
  match t.named name with
  | some id => t.actorAt id
  | none => .error (.unknownActor name)

/-- The port of a name at a type. -/
def portNamed (type name : String) : Except Failure Port :=
  match t.keyed type name with
  | some id => t.portAt id
  | none => .error (.unknownPort type name)

/-- The actors of a type that has had one at some time. -/
def actorsOf (type : String) : Except Failure (List Actor) :=
  match t.instances type with
  | some ids => ids.mapM t.actorAt
  | none => .error (.unknownType type)

/-- Whether a type has an actor. -/
def hasType (type : String) : Bool :=
  !((t.instances type).getD []).isEmpty

/-- The port with a name at the actor with a name. It must have the given direction. -/
def endpoint (place : String × String) (direction : Direction) : Except Failure Endpoint := do
  let actor ← t.actorNamed place.1
  let port ← t.portNamed actor.type place.2
  if port.direction = direction then return ⟨actor, port⟩
  else throw (.wrongDirection direction place.1 place.2)

/-- The link at the other end of a channel, which is found by the direction of the port at this
end. -/
def opposite (l : Link) : Except Failure Link :=
  if t.bound l.channel.id then .ok ⟨l.channel, l.near.port.direction.opposite⟩
  else .error (.unboundChannel l.channel.id)

/-- Note the channel of a link unless it was met before. -/
def meet (seen : List Channel) (l : Link) : List Channel :=
  if seen.any (·.id == l.channel.id) then seen else seen ++ [l.channel]

/-- The channels along some links, each where it is met for the first time. -/
def channelsAlong (links : List Link) : List Channel :=
  links.foldl meet []

/-- The channels of an actor, along its inputs and then along its outputs. -/
def channelsOf (a : Actor) : List Channel :=
  channelsAlong (t.links a.id .input ++ t.links a.id .output)

end Lookups

section Additions

/-- Put an item into an arena. It takes the place of an item that has its handle already. -/
def enter {α : Type} (id : α → Handle) (item : α) (items : List α) : List α :=
  if items.any (id · == id item) then
    items.map fun old => if id old == id item then item else old
  else items ++ [item]

/-- Put an actor without links into the arena, under its name, and at the end of its type. -/
def withActor (t : Tables) (a : Actor) : Tables :=
  { t with
    actors := enter (·.id) a t.actors
    named := fun name => if name = a.name then some a.id else t.named name
    instances := fun type =>
      if type = a.type then some ((t.instances type).getD [] ++ [a.id]) else t.instances type
    links := fun id direction => if id = a.id then [] else t.links id direction }

/-- Put a port into the arena and under its type and name. -/
def withPort (t : Tables) (p : Port) (rate : Option String) : Tables :=
  { t with
    ports := enter (·.id) p t.ports
    keyed := fun type name =>
      if type = p.type ∧ name = p.name then some p.id else t.keyed type name
    rates := fun id => if id = p.id then rate else t.rates id }

/-- Give a rate to a port. -/
def withRate (t : Tables) (p : Port) (rate : String) : Tables :=
  { t with rates := fun id => if id = p.id then some rate else t.rates id }

/-- Put a link at the end of the list of its actor. -/
def pushLink (t : Tables) (l : Link) : Tables :=
  { t with
    links := fun id direction =>
      if id = l.near.actor.id ∧ direction = l.direction then t.links id direction ++ [l]
      else t.links id direction }

/-- Put the ends of a channel at its actors and the channel into the arena. -/
def withChannel (t : Tables) (c : Channel) : Tables :=
  let t := (t.pushLink ⟨c, .output⟩).pushLink ⟨c, .input⟩
  { t with
    bound := fun id => id == c.id || t.bound id
    channels := enter (·.id) c t.channels }

end Additions

section Removals

/-- Take an item off a list. Nothing comes of it when the item is not there. -/
def takeOff {α : Type} [DecidableEq α] (item : α) (items : List α) : Option (List α) :=
  if item ∈ items then some (items.erase item) else none

/-- Take a link off the list of its actor. -/
def dropLink (t : Tables) (l : Link) : Option Tables := do
  let rest ← takeOff l (t.links l.near.actor.id l.direction)
  return { t with
    links := fun id direction =>
      if id = l.near.actor.id ∧ direction = l.direction then rest else t.links id direction }

/-- Note that a channel has lost its ends. -/
def unbind (t : Tables) (c : Channel) : Tables :=
  { t with bound := fun id => t.bound id && id != c.id }

/-- Take the ends of a channel off the actors, unless the channel has lost them. -/
def unlink (t : Tables) (c : Channel) : Option Tables :=
  if t.bound c.id then do
    let t ← t.dropLink ⟨c, .output⟩
    let t ← t.dropLink ⟨c, .input⟩
    return t.unbind c
  else return t

/-- Take a channel out of the arena. -/
def unlist (t : Tables) (c : Channel) : Tables :=
  { t with channels := t.channels.filter (·.id != c.id) }

/-- Take a channel off the actors and out of the arena. -/
def removeChannel (t : Tables) (c : Channel) : Option Tables := do
  let t ← t.unlink c
  return t.unlist c

/-- Take an actor off those of its type. -/
def leaveType (t : Tables) (a : Actor) : Option Tables := do
  let rest ← takeOff a.id (← t.instances a.type)
  return { t with
    instances := fun type => if type = a.type then some rest else t.instances type }

/-- Free the name of an actor. -/
def freeName (t : Tables) (a : Actor) : Option Tables := do
  let _ ← t.named a.name
  return { t with named := fun name => if name = a.name then none else t.named name }

/-- Take an actor out of the arena. -/
def leaveArena (t : Tables) (a : Actor) : Option Tables := do
  return { t with actors := ← takeOff a t.actors }

/-- Take an actor off its type, off the names and out of the arena. -/
def dismiss (t : Tables) (a : Actor) : Option Tables := do
  let t ← t.leaveType a
  let t ← t.freeName a
  t.leaveArena a

/-- Take an actor out, after the channels that it has at the beginning. -/
def removeActor (t : Tables) (a : Actor) : Option Tables := do
  let t ← (t.channelsOf a).foldlM removeChannel t
  t.dismiss a

end Removals

section Copies

/-- Put a port of the tables into their copy, with its rate. -/
def restorePort (t copy : Tables) (p : Port) : Tables :=
  copy.withPort p (t.rates p.id)

/-- The end of a channel of the copy: the actor and the port of the copy with the handles of the old
ones. -/
def restoreEnd (copy : Tables) (e : Endpoint) : Except Failure Endpoint := do
  return ⟨← copy.actorAt e.actor.id, ← copy.portAt e.port.id⟩

/-- Put a channel of the tables into their copy. A channel that has lost its ends has no actor. -/
def restoreChannel (t copy : Tables) (c : Channel) : Except Failure Tables := do
  if !t.bound c.id then throw (.absent "actor")
  return copy.withChannel
    { c with source := ← copy.restoreEnd c.source, target := ← copy.restoreEnd c.target }

/-- A copy that keeps all handles, made anew: its ports, then its actors, and then its channels. -/
def clone (t : Tables) : Except Failure Tables :=
  let copy := t.ports.foldl t.restorePort { empty t.name with modifiers := t.modifiers }
  t.channels.foldlM t.restoreChannel (t.actors.foldl withActor copy)

end Copies

end Tables

/-- The tables that agree with a graph. -/
def tables (g : Graph) : Tables where
  name := g.name
  actors := g.actors
  ports := g.ports
  rates := fun id => g.rates.lookup id
  channels := g.channels
  modifiers := g.modifiers
  named := fun name => (g.actors.find? (·.name == name)).map (·.id)
  keyed := fun type name =>
    (g.ports.find? fun p => p.type == type && p.name == name).map (·.id)
  instances := fun type =>
    if g.types.contains type then some ((g.instances type).map (·.id)) else none
  links := fun id direction =>
    (g.linked.filter fun c => (c.endpoint direction).actor.id == id).map (⟨·, direction⟩)
  bound := fun id => g.linked.any (·.id == id)

end Dataflow.Graph
