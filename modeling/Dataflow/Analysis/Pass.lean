import Dataflow.Analysis.Report
import Dataflow.Protocol.Sources
import Dataflow.Protocol.Users

namespace Dataflow

open Text

/-- The options of an analysis. -/
structure Config where
  stopOnError : Bool := true
  startActor : Option String := none
  connectUsers : Bool := true
  checkLiveness : Bool := true

/-- A graph under analysis, with what the passes have found so far. -/
structure Run extends Workspace where
  config : Config
  table : Option Repetitions
  safe : Bool
  violations : List Violation
  diagnostics : List Diagnostic

namespace Run

/-- A run that has not begun, over a graph about which nothing is known. -/
def start (graph : Graph) (config : Config) : Run where
  graph := graph
  rates := .empty
  protocol := .empty
  journal := []
  config := config
  table := none
  safe := false
  violations := []
  diagnostics := []

/-- Whether a finding was an error. -/
def hasErrors (run : Run) : Bool :=
  run.diagnostics.any (·.isError)

/-- Run an action of the workspace inside an analysis. -/
def onWorkspace {α : Type} (action : Action Workspace α) : Action Run α :=
  action.within (·.toWorkspace) fun run w => { run with toWorkspace := w }

/-- Write a record into the journal. -/
def note (level : Level) (message : String) : Action Run Unit :=
  onWorkspace (Workspace.note level message)

/-- Add a finding. -/
def diagnose (d : Diagnostic) : Action Run Unit :=
  modify fun run => { run with diagnostics := run.diagnostics ++ [d] }

/-- Add a violation and the error that reports it. -/
def convict (code : String) (location : String) (violation : Violation) : Action Run Unit := do
  modify fun run => { run with violations := run.violations ++ [violation] }
  let report ← violation.report (← get).graph
  diagnose (.error code report (some location) (some violation))

end Run

/-- The steps of an analysis. -/
inductive Pass where
  | periodActors
  | structural
  | rates
  | sources
  | balance
  | users
  | safety
  | wiring
  | liveness
  deriving DecidableEq

namespace Pass

/-- All passes in the order of a full analysis. -/
def all : List Pass :=
  [periodActors, structural, rates, sources, balance, users, safety, wiring, liveness]

/-- The name by which a pass is known. -/
def name : Pass → String
  | periodActors => "PeriodActorPass"
  | structural => "StructuralPass"
  | rates => "RateParsePass"
  | sources => "ParameterSourcePass"
  | balance => "BalanceEquationPass"
  | users => "ParameterUserPass"
  | safety => "SafetyPass"
  | wiring => "ParameterWiringPass"
  | liveness => "LivenessPass"

/-- The pass of a name. -/
def ofName? (s : String) : Option Pass :=
  all.find? (·.name == s)

/-- Whether a port is on a channel. -/
def isConnected (g : Graph) (p : Port) : Bool :=
  g.channels.any fun c => c.source.port.id == p.id || c.target.port.id == p.id

/-- A port without a rate is harmless as long as it is on no channel. -/
def reportDanglingPorts : Action Run Unit := do
  let g := (← get).graph
  (g.ports.filter fun p => (g.rateText? p).isNone && !isConnected g p).forM fun p =>
    Run.diagnose <| .warning "STRUCT001"
      s!"Port '{p.name}' of '{p.type}' is unconnected and has no rate" (some p.type)

/-- Find the sources of the parameters and report those of the environment. -/
def identifySources : Action Run Unit := do
  Run.onWorkspace Workspace.identifySources
  (← get).protocol.environment.forM fun parameter =>
    Run.diagnose <| .warning "SPDF004"
      s!"Parameter '{parameter}' has no modifier and is treated as an environment constant"
      (some parameter)

/-- Solve the balance equations from the actor that the configuration names. -/
def solveBalance : Action Run Unit := do
  let run ← get
  let start ← match run.config.startActor with
    | none => pure none
    | some name => some <$> (run.graph.actorNamed name : Action Run Actor)
  match ← Run.onWorkspace (Workspace.solve start) with
  | .success table => modify fun run => { run with table := some table }
  | .violated evidence =>
    Run.convict "SPDF001" ((← get).graph.channelText evidence.reference) (.inconsistency evidence)

/-- Check that parameters are changed safely, if the equations have a solution. -/
def checkSafety : Action Run Unit := do
  match (← get).table with
  | none => return
  | some table =>
    match ← Run.onWorkspace (Workspace.checkSafety table) with
    | .success _ => modify fun run => { run with safe := true }
    | .violated evidence =>
      modify fun run => { run with safe := false }
      Run.convict "SPDF002" evidence.parameter (.misuse evidence)

/-- The types of the sources with the names of the targets, in the order of the channels. -/
def targetsBySource (channels : List Channel) : List (String × List String) :=
  channels.foldl (fun groups c =>
    let type := c.source.actor.type
    Assoc.insert type ((groups.lookup type).getD [] ++ [c.target.actor.name]) groups) []

/-- Deliver the parameters to their users, if that is wanted and safe. -/
def connectUsers : Action Run Unit := do
  let run ← get
  if run.config.connectUsers then
    match run.safe, run.table with
    | true, some table =>
      let created ← Run.onWorkspace (Workspace.connectSources table)
      (targetsBySource created).forM fun group =>
        Run.note .info s!"Wired {group.1} to {quoteList group.2}"
    | _, _ => Run.note .debug "Skipping parameter wiring: graph is not known to be safe"

/-- Look for a directed cycle, if that is wanted. -/
def checkLiveness : Action Run Unit := do
  if (← get).config.checkLiveness then
    match ← Run.onWorkspace Workspace.checkLiveness with
    | .success _ => return
    | .violated cycle => Run.convict "SPDF003" cycle.start.name (.cycle cycle)

/-- Carry out a pass. -/
def run : Pass → Action Run Unit
  | periodActors => Run.onWorkspace Workspace.insertPeriodActors
  | structural => reportDanglingPorts
  | rates => Run.onWorkspace Workspace.parseRates
  | sources => identifySources
  | balance => solveBalance
  | users => do
    match (← get).table with
    | none => return
    | some table => Run.onWorkspace (Workspace.identifyUsers table)
  | safety => checkSafety
  | wiring => connectUsers
  | liveness => checkLiveness

/-- Carry out passes in order, and stop after an error if the configuration wants it. -/
def runAll : List Pass → Action Run Unit
  | [] => return
  | pass :: passes => do
    Run.note .debug s!"Running pass {pass.name}"
    pass.run
    let run ← get
    if run.config.stopOnError && run.hasErrors then
      Run.note .debug s!"Pass {pass.name} reported errors, stopping"
    else runAll passes

end Pass

namespace Run

/-- What a run has found out. -/
def report (run : Run) : Report where
  success := !run.hasErrors
  diagnostics := run.diagnostics
  violations := run.violations
  table := run.table
  protocol := run.protocol
  rates := run.rates

end Run

end Dataflow
