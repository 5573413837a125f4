import Dataflow.Analysis.Pass

namespace Dataflow

/-- An analysis that was planned, and its report once it is done. -/
structure Analyzer where
  config : Config
  started : Bool
  report : Option Report

/-- An analyzer with the graph that it is for, and the journal. -/
structure AnalyzerState where
  analyzer : Analyzer
  graph : Graph
  journal : Journal

namespace Analyzer

/-- An analyzer that has not run. -/
def new (config : Config) : Analyzer :=
  ⟨config, false, none⟩

/-- Carry out all passes. -/
def conduct : Action Run Report := do
  let g := (← get).graph
  let name := g.name.getD "None"
  Run.note .info
    s!"Analyzing graph {name}: {g.actors.length} actors, {g.channels.length} channels"
  Pass.runAll Pass.all
  return (← get).report

/-- Write a record into the journal, under the name of the graph. -/
def note (level : Level) (message : String) : Action AnalyzerState Unit :=
  modify fun s => { s with journal := s.journal ++ [⟨level, s.graph.name, message⟩] }

/-- Record how an analysis came out. -/
def noteOutcome (report : Report) : Action AnalyzerState Unit := do
  if report.success then
    let solutions ← match report.table with
      | none => pure "None"
      | some table => (table.render (← get).graph : Action AnalyzerState String)
    note .info s!"Analysis succeeded: {solutions}"
  else
    note .error s!"Analysis failed with {(Report.errors report.diagnostics).length} error(s)"

/-- Analyze the graph. The report is kept before it is recorded how the analysis came out, and all
records carry the name of the graph. -/
def run : Action AnalyzerState Report := do
  if (← get).analyzer.started then throw .alreadyAnalyzed
  modify fun s => { s with analyzer := { s.analyzer with started := true } }
  let report ← conduct.within (fun s => .start s.graph s.analyzer.config) fun s run =>
    { s with graph := run.graph, journal := s.journal ++ run.journal.stamp s.graph.name }
  modify fun s => { s with analyzer := { s.analyzer with report := some report } }
  noteOutcome report
  return report

/-- The repetition table of an analyzer that has run. -/
def solutions (analyzer : Analyzer) : Except Failure Repetitions :=
  match analyzer.report with
  | some report => report.solutions
  | none => .error .notAnalyzed

end Analyzer

end Dataflow
