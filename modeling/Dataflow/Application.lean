import Dataflow.Analysis.Analyzer
import Dataflow.Text.Uppercase

namespace Dataflow

/-- An application under construction, with its graph and the journal. -/
structure Application where
  graph : Graph
  journal : Journal
  report : Option Report

namespace Application

/-- An application without actors. -/
def new (name : Option String) : Application where
  graph := .empty name
  journal := []
  report := none

/-- Work on the graph. -/
def onGraph {α : Type} (action : Action Graph α) : Action Application α :=
  action.within (·.graph) fun app graph => { app with graph }

/-- Write a record into the journal. -/
def note (level : Level) (message : String) : Action Application Unit :=
  modify fun app => { app with journal := app.journal.note level message }

/-- Add an actor; one without a type of its own gets a type of its name. -/
def addActor (name : String) (type : Option String) (execTime : Int) : Action Application Actor :=
  let type := match type with
    | none => name
    | some type => if type = "" then name else type
  onGraph (Graph.addActor name type execTime false)

/-- Add a port whose direction is given as a word, in capitals or not. -/
def addPort (type name direction : String) (rate : Option String) : Action Application Port := do
  let word := Text.uppercase direction
  match Direction.ofWord? word with
  | some direction => onGraph (Graph.addPort type name direction rate)
  | none => throw (.unknownDirection word)

/-- Cut `actor.port` at its first point. -/
def splitEndpoint (text : String) : Except Failure (String × String) :=
  let cs := text.toList
  let actor := cs.takeWhile (· != '.')
  match cs.dropWhile (· != '.') with
  | _ :: port =>
    if actor.isEmpty || port.isEmpty then .error (.malformedEndpoint text)
    else .ok (String.ofList actor, String.ofList port)
  | [] => .error (.malformedEndpoint text)

/-- See to it that an actor has a port, with the given rate if there is one. -/
def declarePort (place : String × String) (direction : Direction) (rate : Option String) :
    Action Graph Unit := do
  let actor ← (← get).actorNamed place.1
  if !(← get).hasPort actor.type place.2 then
    let _ ← Graph.addPort actor.type place.2 direction rate
  else
    let port ← (← get).portNamed actor.type place.2
    match rate with
    | none => return
    | some wanted =>
      if (← get).rateText? port ≠ rate then Graph.setRate port wanted

/-- Connect two ports. -/
def connect (source target : String) (sourceRate targetRate : Option String)
    (initialTokens : Int) : Action Application Channel := do
  let source ← splitEndpoint source
  let target ← splitEndpoint target
  onGraph (declarePort source .output sourceRate)
  onGraph (declarePort target .input targetRate)
  let channel ← onGraph (Graph.addChannel source target { initialTokens })
  note .debug s!"Connected {channel.text}"
  return channel

/-- Declare that the actors of an actor's type set a parameter. -/
def modifyParameter (actor parameter period kind : String) : Action Application Unit := do
  let actor ← (← get).graph.actorNamed actor
  onGraph (Graph.addModifier { type := actor.type, parameter, kind, period })

/-- Analyze the graph as it is now. -/
def analyze (config : Config) : Action Application Report := do
  let report ← Analyzer.run.within
    (fun app => ⟨.new config, app.graph, app.journal⟩)
    fun app s => { app with graph := s.graph, journal := s.journal }
  modify fun app => { app with report := some report }
  let text ← report.text (← get).graph
  note (if report.success then .info else .error) ("\n" ++ text)
  return report

/-- The repetition table of the last analysis. -/
def solutions (app : Application) : Except Failure Repetitions :=
  match app.report with
  | some report => report.solutions
  | none => .error .applicationNotAnalyzed

end Application

end Dataflow
