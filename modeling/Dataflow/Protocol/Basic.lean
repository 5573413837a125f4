import Dataflow.Assoc
import Dataflow.Graph.Lookup

namespace Dataflow

/-- Who uses which parameter. It is noted twice, under the actor and under the parameter. -/
structure Uses where
  /-- The parameters that the actor of a handle uses. -/
  byActor : List (Handle × List String)
  /-- The users of a parameter with their handles, in the order in which they were found. -/
  byParameter : List (String × List (Handle × Actor))

namespace Uses

/-- No use was noted yet. -/
def empty : Uses where
  byActor := []
  byParameter := []

/-- The parameters that the actor of a handle uses. -/
def parametersOf (u : Uses) (id : Handle) : List String :=
  (u.byActor.lookup id).getD []

/-- The users of a parameter with their handles. -/
def usersOf (u : Uses) (parameter : String) : List (Handle × Actor) :=
  (u.byParameter.lookup parameter).getD []

/-- Make a set of parameters for an actor that has none yet. -/
def enroll (u : Uses) (id : Handle) : Uses :=
  { u with byActor := Assoc.insert id (u.parametersOf id) u.byActor }

/-- Note under both that an actor uses a parameter. -/
def add (u : Uses) (a : Actor) (parameter : String) : Uses :=
  let used := u.parametersOf a.id
  { byActor :=
      Assoc.insert a.id (if used.contains parameter then used else used ++ [parameter]) u.byActor
    byParameter :=
      Assoc.insert parameter (Assoc.insert a.id a (u.usersOf parameter)) u.byParameter }

/-- Note that an actor uses some parameters. -/
def addUser (u : Uses) (a : Actor) (parameters : List String) : Uses :=
  parameters.foldl (fun u parameter => u.add a parameter) (u.enroll a.id)

end Uses

/-- What is known about the parameters of one graph. A parameter that no actor sets is an unknown
constant of the environment. -/
structure Protocol where
  /-- The period actors of each parameter that has a modifier. A period actor fires once for each
  new value of its parameter. -/
  sources : List (String × List Actor)
  /-- The actor that feeds each period actor. -/
  feeders : List (Handle × Actor)
  environment : List String
  /-- Which actor sets which parameter. -/
  modified : List (Handle × String)
  uses : Uses
  inserted : Bool
  connected : Bool

/-- The type of the period actors of a parameter. -/
def periodType (parameter : String) : String :=
  s!"<{parameter}>"

namespace Protocol

/-- Nothing is known yet. -/
def empty : Protocol where
  sources := []
  feeders := []
  environment := []
  modified := []
  uses := .empty
  inserted := false
  connected := false

/-- The parameters that have a modifier. -/
def modifiedParameters (p : Protocol) : List String :=
  p.sources.map Prod.fst

/-- The first period actor of a parameter. -/
def source? (p : Protocol) (parameter : String) : Option Actor :=
  (p.sources.lookup parameter).bind List.head?

/-- The actor that feeds a period actor. -/
def feederOf (p : Protocol) (source : Actor) : Except Failure Actor :=
  match p.feeders.lookup source.id with
  | some feeder => .ok feeder
  | none => .error (.unknownHandle source.id)

/-- Whether an actor is a period actor. -/
def isSource (p : Protocol) (a : Actor) : Bool :=
  (p.feeders.lookup a.id).isSome

/-- The parameters that an actor sets. -/
def modifiedBy (p : Protocol) (a : Actor) : List String :=
  (p.modified.filter (·.1 == a.id)).map Prod.snd

/-- The parameters that an actor uses. -/
def usedBy (p : Protocol) (a : Actor) : List String :=
  p.uses.parametersOf a.id

/-- The users of a parameter. -/
def usersOf (p : Protocol) (parameter : String) : List Actor :=
  (p.uses.usersOf parameter).map Prod.snd

/-- The parameters that have a user. -/
def usedParameters (p : Protocol) : List String :=
  p.uses.byParameter.map Prod.fst

/-- Note that an actor uses some parameters. -/
def addUser (p : Protocol) (a : Actor) (parameters : List String) : Protocol :=
  { p with uses := p.uses.addUser a parameters }

/-- Note that an actor sets a parameter. -/
def addModified (p : Protocol) (a : Actor) (parameter : String) : Protocol :=
  if (p.modifiedBy a).contains parameter then p
  else { p with modified := p.modified ++ [(a.id, parameter)] }

/-- Note that a parameter occurs; without a modifier it belongs to the environment. -/
def addOccurrence (p : Protocol) (parameter : String) : Protocol :=
  if p.modifiedParameters.contains parameter || p.environment.contains parameter then p
  else { p with environment := p.environment ++ [parameter] }

end Protocol

end Dataflow
