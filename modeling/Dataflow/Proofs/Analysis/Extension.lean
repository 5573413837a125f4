import Dataflow.Proofs.Analysis.Coherence
import Dataflow.Proofs.Protocol.Insertion

namespace Dataflow

open Dataflow.Action

private theorem Graph.wirable_wired {origin : Graph} {actors : List Actor}
    {channels : List Channel} : Wirable (Wired origin actors channels) where
  addPort := by
    rintro type name direction rate g ⟨wired, hg, hwired⟩
    exact ⟨wired, keeps_addPort_extends g hg, hwired⟩
  addChannel := fun _ _ _ => addChannel_wired

namespace Pass

/-- An analysis that does not arrive at a pass keeps what all the others keep. -/
theorem after_runAll_of_not_arrive {P : Run → Prop} {target : Pass} {passes : List Pass} {run : Run}
    (hnoted : ∀ run level message, P run → P (run.noted level message))
    (hkeeps : ∀ pass ∈ passes, pass ≠ target → pass.run.Keeps P) (hrun : P run)
    (h : arrive target passes run = none) : P ((runAll passes).after run) := by
  induction passes generalizing run with
  | nil => exact hrun
  | cons pass passes ih =>
    obtain ⟨hfirst, hrest⟩ := List.forall_mem_cons.mp hkeeps
    have hne : pass ≠ target := by
      rintro rfl
      rw [arrive_self] at h
      cases h
    have hstart := hnoted _ .debug s!"Running pass {pass.name}" hrun
    unfold after
    rw [runAll_cons]
    cases hpass : pass.run (run.noted .debug s!"Running pass {pass.name}") with
    | error e next =>
      rw [resume_of_error hpass]
      exact (hfirst hne).of_error hstart hpass
    | ok _ next =>
      have hnext := (hfirst hne).of_ok hstart hpass
      rw [resume_of_ok hpass]
      cases hstop : next.config.stopOnError && next.hasErrors with
      | true => exact hnoted _ _ _ hnext
      | false =>
        rw [arrive_cons_of_ok hne hpass hstop] at h
        exact ih hrest hnext h

end Pass

namespace Analyzer

variable {g : Graph} {config : Config}

/-- The run as it stands when the period actors are about to be inserted. -/
def inserting (g : Graph) (config : Config) : Run :=
  (opening g config).noted .debug s!"Running pass {Pass.periodActors.name}"

/-- The run as the insertion of the period actors leaves it, however far that gets. -/
def inserted (g : Graph) (config : Config) : Run :=
  Pass.periodActors.run.after (inserting g config)

/-- The run as the analysis leaves it, however far that gets. -/
def aftermath (g : Graph) (config : Config) : Run :=
  conduct.after (Run.start g config)

private theorem inserted_eq (g : Graph) (config : Config) : inserted g config =
    { inserting g config with
      toWorkspace := Workspace.insertPeriodActors.after (inserting g config).toWorkspace } :=
  after_within

/-- The analysis ends with the insertion of the period actors, or goes on after it. -/
theorem aftermath_eq (g : Graph) (config : Config) :
    aftermath g config = inserted g config ∧ arrive g config .wiring = none ∨
      aftermath g config = (Pass.runAll Pass.all.tail >>= fun _ => sumUp).after (inserted g config) ∧
        arrive g config .wiring = Pass.wiring.arrive Pass.all.tail (inserted g config) := by
  unfold aftermath inserted after
  rw [conduct_eq]
  cases hinsert : Pass.periodActors.run (inserting g config) with
  | error e next =>
    have hall : Pass.runAll Pass.all (opening g config) = .error e next :=
      (Pass.runAll_cons ..).trans (Pass.resume_of_error hinsert)
    rw [bind_eq_error_iff.mpr (.inl hall)]
    refine .inl ⟨rfl, Option.eq_none_iff_forall_ne_some.mpr fun reached harrive => ?_⟩
    obtain ⟨next', hok, -⟩ := Pass.exists_of_arrive_cons (by decide) harrive
    cases hinsert.symm.trans hok
  | ok _ next =>
    have hgo : (next.config.stopOnError && next.hasErrors) = false := by
      obtain ⟨w, -, rfl⟩ := Pass.periodActors_eq_ok hinsert
      exact Bool.and_false _
    have hall : Pass.runAll Pass.all (opening g config) = Pass.runAll Pass.all.tail next := by
      refine (Pass.runAll_cons ..).trans ((Pass.resume_of_ok hinsert).trans ?_)
      rw [hgo]
      rfl
    rw [bind_apply_congr hall]
    exact .inr ⟨rfl, Pass.arrive_cons_of_ok (by decide) hinsert hgo⟩

/-- What the passes after the insertion keep, the analysis keeps from there on. -/
theorem aftermath_keeps {P : Graph → Protocol → Prop}
    (hP : ∀ pass ∈ Pass.all.tail, pass.run.Keeps fun run => P run.graph run.protocol)
    (h : P (inserted g config).graph (inserted g config).protocol) :
    P (aftermath g config).graph (aftermath g config).protocol := by
  obtain ⟨heq, -⟩ | ⟨heq, -⟩ := aftermath_eq g config
  · rw [heq]
    exact h
  · rw [heq]
    exact (Pass.keeps_runAll hP).bind (fun _ => keeps_sumUp) _ h

/-- An analysis that does not arrive at the deliveries adds nothing to the period actors. -/
theorem aftermath_graph_eq (h : arrive g config .wiring = none) :
    (aftermath g config).graph = (inserted g config).graph := by
  obtain ⟨heq, -⟩ | ⟨heq, harrive⟩ := aftermath_eq g config
  · rw [heq]
  · rw [heq]
    have hkeeps (pass : Pass) (hpass : pass ∈ Pass.all.tail) (hne : pass ≠ .wiring) :
        pass.run.Keeps fun run => run.graph = (inserted g config).graph := by
      refine Pass.keeps_run_of_steady (Protocol.steady_graph (· = (inserted g config).graph)) ?_
      revert hpass hne
      cases pass <;> decide
    refine after_bind (P := fun run : Run => run.graph = (inserted g config).graph) ?_ fun _ =>
      keeps_sumUp (P := fun h _ => h = (inserted g config).graph)
    exact Pass.after_runAll_of_not_arrive (fun _ _ _ hrun => hrun) hkeeps rfl (harrive.symm.trans h)

private theorem inserted_graph_eq {reached : Run} (h : arrive g config .structural = some reached) :
    reached.graph = (inserted g config).graph := by
  obtain ⟨next, hinsert, hrest⟩ := Pass.exists_of_arrive_cons (by decide) h
  have hnext : inserted g config = next := after_of_ok hinsert
  rw [Pass.eq_of_arrive_self hrest, hnext]
  rfl

/-- What an analysis adds to a graph, whether it comes to an end or fails: period actors of the
parameters that are set in the graph, the channels over which these are fed, and the channels over
which the parameters are delivered. The channels of the first kind are those that are there after
the insertion of the period actors. -/
structure Adds (s : AnalyzerState) (sources : List Actor) (fed wired : List Channel) : Prop where
  grown : s.graph.Extends (Analyzer.run.after s).graph sources (fed ++ wired)
  inserted_eq :
    (inserted s.graph s.analyzer.config).graph.channels = s.graph.channels ++ fed
  sources_new : ∀ a ∈ sources,
    a.auto = true ∧ ∃ m ∈ s.graph.modifiers, a.type = periodType m.parameter
  fed_once : ∀ a ∈ sources, ∃! c, c ∈ fed ∧ c.target.actor = a
  feeder_eq : ∀ c ∈ fed, c.target.actor ∈ sources ∧
    (aftermath s.graph s.analyzer.config).protocol.feederOf c.target.actor = .ok c.source.actor
  channels_auto : ∀ c ∈ fed ++ wired, c.auto = true
  wired_eq_nil : arrive s.graph s.analyzer.config .wiring = none → wired = []
  reported : ∀ report s', Analyzer.run s = .ok report s' →
    report.protocol = (aftermath s.graph s.analyzer.config).protocol ∧
      (report.Has "SPDF001" ∨ report.Has "SPDF002" → wired = [])

private theorem inserted_inserted (hg : g.WellFormed) (config : Config) : ∃ sources fed,
    Workspace.Inserted g sources fed (inserted g config).toWorkspace := by
  rw [inserted_eq]
  exact Workspace.inserted_after hg _ _

/-- After the insertion nothing comes to the graph but ports and channels of the analysis, and who
feeds the period actors stays as it is. -/
theorem aftermath_wired {sources : List Actor} {fed : List Channel}
    (h : g.Extends (inserted g config).graph sources fed) :
    Graph.Wired g sources fed (aftermath g config).graph ∧
      (aftermath g config).protocol.feeders = (inserted g config).protocol.feeders := by
  have hlater (pass : Pass) (hpass : pass ∈ Pass.all.tail) : pass ≠ .periodActors := by
    rintro rfl
    revert hpass
    decide
  constructor
  · exact aftermath_keeps (P := fun h _ => Graph.Wired g sources fed h)
      (fun pass hpass => Pass.keeps_run_of_wirable (fun _ => Graph.wirable_wired) (fun _ _ => id)
        (Protocol.steady_graph _) (hlater pass hpass)) h.wired
  · exact aftermath_keeps (P := fun _ p => p.feeders = (inserted g config).protocol.feeders)
      (fun pass hpass => Pass.keeps_run_of_wirable
        (fun _ => ⟨fun _ _ _ _ _ => id, fun _ _ _ _ _ => id⟩) (fun _ _ => id)
        (Protocol.steady_feeders fun _ feeders => feeders = (inserted g config).protocol.feeders)
        (hlater pass hpass)) rfl

variable {s s' : AnalyzerState} {report : Report}

private theorem run_after_graph (h : s.analyzer.started = false) :
    (Analyzer.run.after s).graph = (aftermath s.graph s.analyzer.config).graph := by
  unfold aftermath after
  rw [run_of_new h]
  cases conduct (Run.start s.graph s.analyzer.config) with
  | ok report run =>
    exact (keeps_noteOutcome (P := (· = run.graph)) |>.bind fun _ => keeps_pure _) _ rfl
  | error e run => rfl

private theorem report_protocol_eq (hnew : s.analyzer.started = false)
    (h : Analyzer.run s = .ok report s') :
    report.protocol = (aftermath s.graph s.analyzer.config).protocol := by
  rw [run_of_new hnew] at h
  split at h
  · rename_i hconduct
    obtain ⟨_, _, -, h⟩ := bind_eq_ok_iff.mp h
    cases h
    obtain ⟨-, rfl⟩ := conduct_eq_ok hconduct
    rw [aftermath, after_of_ok hconduct]
    rfl
  · cases h

/-- `Analyzer.run` only extends the graph, whether it returns or fails at whatever pass. An analyzer
that has run before leaves the graph as it is. -/
theorem run_extends (hs : s.graph.Reachable) :
    (s.analyzer.started = true → Analyzer.run.after s = s) ∧
      (s.analyzer.started = false → ∃ sources fed wired, Adds s sources fed wired) := by
  refine ⟨fun hstarted => after_of_error (run_of_started hstarted), fun hnew => ?_⟩
  obtain ⟨sources, fed, hinserted⟩ := inserted_inserted hs.wellFormed s.analyzer.config
  obtain ⟨⟨wired, hgrown, hauto⟩, hfeeders⟩ := aftermath_wired hinserted.grown
  have hgraph := run_after_graph hnew
  refine ⟨sources, fed, wired, hgraph ▸ hgrown, hinserted.grown.channels_eq, hinserted.sources_new,
    fun a => hinserted.existsUnique_channel, fun c hc => ⟨?_, ?_⟩,
    List.forall_mem_append.mpr ⟨hinserted.fed_auto, hauto⟩, fun hnone => ?_,
    fun report s' hrun => ⟨report_protocol_eq hnew hrun, fun hfound => ?_⟩⟩
  · rw [← hinserted.targets_eq]
    exact List.mem_map_of_mem hc
  · rw [← hinserted.feederOf_eq hc, Protocol.feederOf, Protocol.feederOf, hfeeders]
  · have hchannels := hgrown.channels_eq
    rw [aftermath_graph_eq hnone, hinserted.grown.channels_eq, ← List.append_assoc] at hchannels
    exact List.self_eq_append_right.mp hchannels
  · obtain ⟨reached, wired', hreached, hchannels, hclear⟩ := exists_wired_of_run hs hrun
    rw [inserted_graph_eq hreached, hinserted.grown.channels_eq, ← after_of_ok hrun, hgraph,
      hgrown.channels_eq, ← List.append_assoc] at hchannels
    obtain rfl := List.append_cancel_left hchannels
    by_contra hne
    exact hfound.elim (hclear hne).1 (hclear hne).2.1

/-- Two actors that set a parameter each. The name of the second period actor is taken. -/
def clashing : Graph :=
  Graph.performAll (.empty none)
    [ .addActor "a" "A" 0 false, .addActor "b" "B" 0 false, .addActor "<q>" "C" 0 false,
      .addPort "A" "out" .output (some "p"), .addPort "B" "in" .input (some "2"),
      .addChannel ("a", "out") ("b", "in") {}, .addModifier ⟨"A", "p", "int", "3"⟩,
      .addModifier ⟨"B", "q", "int", "1"⟩ ]

theorem run_extends_clashing :
    clashing.Reachable ∧
      Analyzer.run.failure? ⟨.new {}, clashing, []⟩ = some (.duplicateActor "<q>") ∧
      ∃ source c, Adds ⟨.new {}, clashing, []⟩ [source] [c] [] := by
  have hg : clashing.Reachable := (Graph.Reachable.empty none).performAll _
  have hfails : Analyzer.run.failure? ⟨.new {}, clashing, []⟩ = some (.duplicateActor "<q>") := by
    decide +kernel
  have hactors : (Analyzer.run.after ⟨.new {}, clashing, []⟩).graph.actors.length =
      clashing.actors.length + 1 := by
    decide +kernel
  have hchannels : (Analyzer.run.after ⟨.new {}, clashing, []⟩).graph.channels.length =
      clashing.channels.length + 1 := by
    decide +kernel
  have hstart : (⟨.new {}, clashing, []⟩ : AnalyzerState).graph.Reachable := hg
  obtain ⟨sources, fed, wired, h⟩ := (run_extends hstart).2 rfl
  rw [h.grown.actors_eq, List.length_append, Nat.add_left_cancel_iff] at hactors
  rw [h.grown.channels_eq, List.length_append, Nat.add_left_cancel_iff, List.length_append]
    at hchannels
  obtain ⟨source, rfl⟩ := List.length_eq_one_iff.mp hactors
  obtain ⟨c, ⟨hc, -⟩, -⟩ := h.fed_once source List.mem_cons_self
  have hpos := List.length_pos_of_mem hc
  obtain ⟨c, rfl⟩ := List.length_eq_one_iff.mp (show fed.length = 1 by omega)
  obtain rfl := List.eq_nil_of_length_eq_zero (show wired.length = 0 by omega)
  exact ⟨hg, hfails, source, c, h⟩

end Analyzer

end Dataflow
