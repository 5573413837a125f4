import Dataflow.Analysis.Analyzer
import Dataflow.Proofs.Analysis.Stages
import Dataflow.Proofs.Protocol.Copy

namespace Dataflow

open Dataflow.Action

namespace Run

/-- The same run over a copy of the graph. -/
inductive Copied (run : Run) : Run → Prop
  | intro {w : Workspace} (h : Workspace.Copied run.toWorkspace w) :
    Copied run { run with toWorkspace := w }

/-- The same run over a copy of the graph, under a configuration that may differ in whether the
analysis stops at an error. -/
inductive Twin (stops : Bool → Bool → Prop) (run : Run) : Run → Prop
  | intro {w : Workspace} {stop : Bool} (hw : Workspace.Copied run.toWorkspace w)
    (hstop : stops run.config.stopOnError stop) :
    Twin stops run
      { run with toWorkspace := w, config := { run.config with stopOnError := stop } }

private theorem copied_eq_twin : Copied = Twin Eq := by
  funext run run'
  refine propext ⟨?_, ?_⟩
  · rintro ⟨hw⟩
    exact .intro hw rfl
  · rintro ⟨hw, rfl⟩
    exact .intro hw

variable {stops : Bool → Bool → Prop}

namespace Twin

variable {run run' : Run} (h : Twin stops run run')
include h

theorem graph_copied : Graph.Copied run.graph run'.graph := by
  obtain ⟨⟨hgraph⟩, -⟩ := h
  exact hgraph

theorem report_eq : run'.report = run.report := by
  obtain ⟨⟨-⟩, -⟩ := h
  rfl

theorem safe_eq : run'.safe = run.safe := by
  obtain ⟨-, -⟩ := h
  rfl

theorem stops_of : stops run.config.stopOnError run'.config.stopOnError := by
  obtain ⟨-, hstop⟩ := h
  exact hstop

end Twin

private theorem matches_onWorkspace {α : Type} {action action' : Action Workspace α}
    (h : Matches Workspace.Copied action action') :
    Matches (Twin stops) (onWorkspace action) (onWorkspace action') := by
  refine h.within ?_ ?_
  · rintro run _ ⟨hw, -⟩
    exact hw
  · rintro run _ w w' ⟨-, hstop⟩ hw
    exact .intro hw hstop

/-- What follows the reading of a run has to match whatever types were forgotten, and whether the
analysis is to stop at an error or not. -/
theorem matches_read {α : Type} {next : Run → Action Run α}
    (h : ∀ run types stop, stops run.config.stopOnError stop →
      Matches (Twin stops) (next run) (next { run with
        graph := { run.graph with types }
        config := { run.config with stopOnError := stop } })) :
    Matches (Twin stops) (get >>= next) (get >>= next) := by
  refine matches_get_bind ?_
  rintro run _ ⟨⟨⟨types, -, -⟩⟩, hstop⟩
  exact h run types _ hstop

/-- A change of the findings only leaves the workspace and the configuration as they are. -/
theorem matches_update {change : Run → Run}
    (h : ∀ run w stop, Workspace.Copied run.toWorkspace w → stops run.config.stopOnError stop →
      Twin stops (change run) (change
        { run with toWorkspace := w, config := { run.config with stopOnError := stop } })) :
    Matches (Twin stops) (modify change) (modify change) := by
  refine matches_modify ?_
  rintro run _ ⟨hw, hstop⟩
  exact h run _ _ hw hstop

theorem matches_note (level : Level) (message : String) :
    Matches (Twin stops) (note level message) (note level message) :=
  matches_onWorkspace (Workspace.matches_note level message)

private theorem matches_diagnose (d : Diagnostic) :
    Matches (Twin stops) (diagnose d) (diagnose d) :=
  matches_update fun _ _ _ hw hstop => .intro hw hstop

private theorem matches_convict {code location : String} {violation : Violation} :
    Matches (Twin stops) (convict code location violation) (convict code location violation) := by
  refine Matches.bind (matches_update ?_) fun _ => matches_read fun run types stop _ => ?_
  · exact fun _ _ _ hw hstop => .intro hw hstop
  refine Matches.bind ?_ fun report => matches_diagnose _
  cases violation with
  | inconsistency evidence => exact matches_lift (evidence.report run.graph)
  | misuse evidence => exact matches_lift evidence.report
  | cycle evidence => exact matches_lift (.ok evidence.report)

end Run

namespace Pass

open Run

variable {stops : Bool → Bool → Prop}

private theorem matches_reportDanglingPorts :
    Matches (Twin stops) reportDanglingPorts reportDanglingPorts := by
  refine matches_read fun run types stop _ => ?_
  exact matches_forM fun p => matches_diagnose _

private theorem matches_identifySources : Matches (Twin stops) identifySources identifySources := by
  refine (matches_onWorkspace Workspace.matches_identifySources).bind fun _ => ?_
  refine matches_read fun run types stop _ => ?_
  exact matches_forM fun parameter => matches_diagnose _

private theorem matches_solveBalanceFrom {start : Option Actor} :
    Matches (Twin stops) (solveBalanceFrom start) (solveBalanceFrom start) := by
  refine (matches_onWorkspace Workspace.matches_solve).bind fun verdict => ?_
  cases verdict with
  | success table => exact matches_update fun _ _ _ hw hstop => .intro hw hstop
  | violated evidence =>
    refine matches_read fun run types stop _ => ?_
    exact matches_convict

private theorem matches_solveBalance : Matches (Twin stops) solveBalance solveBalance := by
  refine matches_read fun run types stop _ => ?_
  dsimp only
  cases run.config.startActor with
  | none => exact matches_solveBalanceFrom
  | some name =>
    refine ((matches_lift (run.graph.actorNamed name)).map some).bind fun start => ?_
    exact matches_solveBalanceFrom

private theorem matches_checkSafety : Matches (Twin stops) checkSafety checkSafety := by
  refine matches_read fun run types stop _ => ?_
  dsimp only
  cases run.table with
  | none => exact matches_pure _
  | some table =>
    refine (matches_onWorkspace Workspace.matches_checkSafety).bind fun verdict => ?_
    cases verdict with
    | success _ => exact matches_update fun _ _ _ hw hstop => .intro hw hstop
    | violated evidence =>
      refine Matches.bind (matches_update ?_) fun _ => matches_convict
      exact fun _ _ _ hw hstop => .intro hw hstop

private theorem matches_connectUsers : Matches (Twin stops) connectUsers connectUsers := by
  refine matches_read fun run types stop _ => ?_
  refine .ite ?_ (matches_pure _)
  dsimp only
  split
  · refine (matches_onWorkspace Workspace.matches_connectSources).bind fun created => ?_
    exact matches_forM fun group => matches_note _ _
  · exact matches_note _ _

private theorem matches_checkLiveness : Matches (Twin stops) checkLiveness checkLiveness := by
  refine matches_read fun run types stop _ => ?_
  refine .ite ?_ (matches_pure _)
  refine (matches_onWorkspace Workspace.matches_checkLiveness).bind fun verdict => ?_
  cases verdict with
  | success _ => exact matches_pure _
  | violated cycle => exact matches_convict

/-- A pass does the same over a copy, and it does not matter whether the analysis is to stop at an
error. -/
theorem matches_run (pass : Pass) : Matches (Twin stops) pass.run pass.run := by
  cases pass with
  | periodActors => exact matches_onWorkspace Workspace.matches_insertPeriodActors
  | structural => exact matches_reportDanglingPorts
  | rates => exact matches_onWorkspace Workspace.matches_parseRates
  | sources => exact matches_identifySources
  | balance => exact matches_solveBalance
  | users =>
    refine matches_read fun run types stop _ => ?_
    dsimp only
    cases run.table with
    | none => exact matches_pure _
    | some table => exact matches_onWorkspace Workspace.matches_identifyUsers
  | safety => exact matches_checkSafety
  | wiring => exact matches_connectUsers
  | liveness => exact matches_checkLiveness

private theorem matches_runAll (passes : List Pass) :
    Matches (Twin Eq) (runAll passes) (runAll passes) := by
  induction passes with
  | nil => exact matches_pure _
  | cons pass passes ih =>
    refine (matches_note _ _).bind fun _ => (matches_run pass).bind fun _ => ?_
    refine matches_read fun run types stop hstop => ?_
    subst hstop
    exact .ite (matches_note _ _) ih

end Pass

/-- The same state of an analyzer, but for the graph, of which it has a copy. -/
inductive AnalyzerState.Copied (s : AnalyzerState) : AnalyzerState → Prop
  | intro {graph : Graph} (h : Graph.Copied s.graph graph) : Copied s { s with graph }

namespace Analyzer

/-- What is noted of an outcome depends on nothing in which the graphs differ. -/
theorem matches_noteOutcome {R : AnalyzerState → AnalyzerState → Prop} {report : Report}
    (hcopied : ∀ s t, R s t → Graph.Copied s.graph t.graph)
    (hnote : ∀ level message, Matches R (note level message) (note level message)) :
    Matches R (noteOutcome report) (noteOutcome report) := by
  refine .ite ?_ (hnote _ _)
  cases report.table with
  | none => exact hnote _ _
  | some table =>
    refine matches_get_bind fun s t hst => ?_
    have hrender {g h : Graph} (hgh : Graph.Copied g h) : table.render h = table.render g := by
      obtain ⟨types, -, -⟩ := hgh
      rfl
    rw [hrender (hcopied s t hst)]
    exact (matches_lift (table.render s.graph)).bind fun _ => hnote _ _

theorem matches_sumUp {stops : Bool → Bool → Prop} : Matches (Run.Twin stops) sumUp sumUp :=
  Run.matches_read fun _ _ _ _ => matches_pure _

private theorem matches_conduct : Matches Run.Copied conduct conduct := by
  rw [Run.copied_eq_twin]
  refine Run.matches_read fun run types stop _ => ?_
  refine (Run.matches_note _ _).bind fun _ => ?_
  exact (Pass.matches_runAll Pass.all).bind fun _ => matches_sumUp

/-- An analysis comes to the same report on a copy, or fails in the same way. -/
theorem matches_run : Matches AnalyzerState.Copied run run := by
  refine matches_get_bind ?_
  rintro s _ ⟨-⟩
  refine .ite (matches_throw _) ?_
  refine Matches.bind (matches_modify ?_) fun _ => ?_
  · rintro s _ ⟨hgraph⟩
    exact .intro hgraph
  refine Matches.bind (matches_conduct.within ?_ ?_) fun report => ?_
  · rintro s _ ⟨hgraph⟩
    exact .intro (.intro hgraph)
  · rintro s _ run _ ⟨⟨types, -, -⟩⟩ ⟨⟨hgraph⟩⟩
    exact .intro hgraph
  · refine Matches.bind (matches_modify ?_) fun _ => ?_
    · rintro s _ ⟨hgraph⟩
      exact .intro hgraph
    refine (matches_noteOutcome ?_ fun level message => matches_modify ?_).bind fun _ =>
      matches_pure _
    · rintro s _ ⟨hgraph⟩
      exact hgraph
    · rintro s _ ⟨types, known, forgotten⟩
      exact .intro ⟨types, known, forgotten⟩

end Analyzer

/-- States of analyzers that have the same results and whose graphs answer alike. -/
structure AnalyzerState.Agrees (s t : AnalyzerState) : Prop where
  analyzer : t.analyzer = s.analyzer
  journal : t.journal = s.journal
  dump : t.graph.dump = s.graph.dump
  ask : ∀ {α : Type} (q : Graph.Question α), q.ask t.graph = q.ask s.graph
  text : ∀ report : Report, report.text t.graph = report.text s.graph

private theorem AnalyzerState.Copied.agrees {s t : AnalyzerState} (h : Copied s t) :
    Agrees s t := by
  obtain ⟨hgraph⟩ := h
  refine ⟨rfl, rfl, ?_, hgraph.ask_eq, ?_⟩ <;>
  · obtain ⟨types, -, -⟩ := hgraph
    intros
    rfl

namespace Graph

/-- What the analyses find out about the graph `g` they find out about the graph `h` as well: the
solution of the balance equations, from whatever rates were parsed before and from actors of the
same handle; a directed cycle; and the report of a full analysis, however it is configured. Where
they fail, they fail alike. -/
structure AnalyzedLike (g h : Graph) : Prop where
  solve : ∀ (rates : RateCache) (protocol : Protocol) (journal : Journal),
    EndsAlike Workspace.Copied (Workspace.solve none ⟨g, rates, protocol, journal⟩)
      (Workspace.solve none ⟨h, rates, protocol, journal⟩)
  solveFrom : ∀ (rates : RateCache) (protocol : Protocol) (journal : Journal),
    ∀ a ∈ g.actors, ∀ b ∈ h.actors, b.id = a.id →
      EndsAlike Workspace.Copied (Workspace.solve (some a) ⟨g, rates, protocol, journal⟩)
        (Workspace.solve (some b) ⟨h, rates, protocol, journal⟩)
  checkLiveness : ∀ (rates : RateCache) (protocol : Protocol) (journal : Journal),
    EndsAlike Workspace.Copied (Workspace.checkLiveness ⟨g, rates, protocol, journal⟩)
      (Workspace.checkLiveness ⟨h, rates, protocol, journal⟩)
  analyze : ∀ (config : Config) (journal : Journal),
    EndsAlike AnalyzerState.Agrees (Analyzer.run ⟨.new config, g, journal⟩)
      (Analyzer.run ⟨.new config, h, journal⟩)

private theorem Copied.analyzedLike {g h : Graph} (hg : g.WellFormed) (hcopied : Copied g h) :
    AnalyzedLike g h := by
  have hworkspace (rates : RateCache) (protocol : Protocol) (journal : Journal) :
      Workspace.Copied ⟨g, rates, protocol, journal⟩ ⟨h, rates, protocol, journal⟩ :=
    .intro hcopied
  constructor
  case solve => exact fun rates protocol journal => Workspace.matches_solve _ _ (hworkspace _ _ _)
  case solveFrom =>
    intro rates protocol journal a ha b hb hid
    rw [hcopied.actors_eq] at hb
    obtain rfl := hg.actor_eq_of_id hb ha hid
    exact Workspace.matches_solve _ _ (hworkspace _ _ _)
  case checkLiveness =>
    exact fun rates protocol journal => Workspace.matches_checkLiveness _ _ (hworkspace _ _ _)
  case analyze =>
    intro config journal
    exact (Analyzer.matches_run _ _ (.intro hcopied)).mono fun _ _ h => h.agrees

/-- `clone` succeeds on every graph that can be built, and every analysis has the same result on the
copy, as on any graph that differs from it in types without actors only. -/
theorem clone_analyzedLike {g : Graph} (hg : g.Reachable) :
    (∃ copy, g.clone = .ok copy ∧ AnalyzedLike g copy) ∧
      ∀ copy, Copied g copy → AnalyzedLike g copy := by
  obtain ⟨copy, hclone, hcopied⟩ := hg.wellFormed.exists_clone
  exact ⟨⟨copy, hclone, hcopied.analyzedLike hg.wellFormed⟩,
    fun _ hcopied => hcopied.analyzedLike hg.wellFormed⟩

/-- The rates that are parsed while the balance equations of a graph are solved. -/
def solvedRates (g : Graph) : RateCache :=
  ((Workspace.solve none).after ⟨g, .empty, .empty, []⟩).rates

/-- What an analysis of a graph notes, when some rates were parsed before. -/
def notes {α : Type} (analysis : Action Workspace α) (g : Graph) (rates : RateCache) :
    List String :=
  (analysis.after ⟨g, rates, .empty, []⟩).journal.map (·.message)

/-- The rates that were parsed for the graph serve the copy, on which the solver comes to the same
counts and the search to the same self-loop. -/
theorem clone_analyzedLike_pruned :
    pruned.Reachable ∧ (solvedRates pruned).size = 3 ∧
      AnalyzedLike pruned { pruned with types := ["M", "A"] } ∧
        ∃ copy, pruned.clone = .ok copy ∧ AnalyzedLike pruned copy ∧
          notes (Workspace.solve (some ⟨1, "b", "A", 0, false⟩)) copy (solvedRates pruned) =
            ["Balance equations solved: a(1) b(1) m(1)"] ∧
          notes Workspace.checkLiveness copy (solvedRates pruned) =
            ["Graph is not live: Cycle found: a -> a [a.out --> a.in]"] := by
  have hg : pruned.Reachable := (Reachable.empty none).performAll _
  obtain ⟨⟨copy, hclone, halike⟩, hcopies⟩ := clone_analyzedLike hg
  have hforgetful : Copied pruned { pruned with types := ["M", "A"] } :=
    ⟨_, by decide +kernel, by decide +kernel⟩
  have hsolve : (pruned.clone.toOption.map fun copy =>
      notes (Workspace.solve (some ⟨1, "b", "A", 0, false⟩)) copy (solvedRates pruned)) =
        some ["Balance equations solved: a(1) b(1) m(1)"] := by
    decide +kernel
  have hliveness : (pruned.clone.toOption.map fun copy =>
      notes Workspace.checkLiveness copy (solvedRates pruned)) =
        some ["Graph is not live: Cycle found: a -> a [a.out --> a.in]"] := by
    decide +kernel
  rw [hclone] at hsolve hliveness
  exact ⟨hg, by decide +kernel, hcopies _ hforgetful, copy, hclone, halike,
    Option.some.inj hsolve, Option.some.inj hliveness⟩

end Graph

end Dataflow
