import Dataflow.Proofs.Analysis.Success
import Dataflow.Proofs.Analysis.Wiring
import Dataflow.Proofs.Balance.Completeness

namespace Dataflow

open Dataflow.Action Balance

/-- A channel that was added to a graph to bring a parameter into a port that the graph had. -/
structure Reuses (g : Graph) (protocol : Protocol) (c : Channel) : Prop where
  added : c ∉ g.channels
  port_mem : c.target.port ∈ g.ports
  delivers : ∃ parameter : String, protocol.source? parameter = some c.source.actor ∧
    c.target.port.name = s!"_{parameter}_in"

private theorem Reuses.congr {g : Graph} {p p' : Protocol} {c : Channel} (h : Reuses g p c)
    (hsources : p'.sources = p.sources) : Reuses g p' c where
  added := h.added
  port_mem := h.port_mem
  delivers := by
    unfold Protocol.source?
    rw [hsources]
    exact h.delivers

private theorem input_name_ne (parameter : String) : s!"_{parameter}_in" ≠ "in" := by
  intro h
  have hchars := congrArg String.toList h
  simp [toString] at hchars

private theorem input_name_ne_output (parameter other : String) :
    s!"_{parameter}_in" ≠ s!"_{other}_out" := by
  intro h
  have hlast := congrArg (fun s => s.toList.reverse) h
  simp [toString] at hlast

/-- A delivery is balanced when the user takes one value at a time. -/
theorem Delivers.balances_iff {table : Repetitions} {g g' : Graph} {d : Delivery} {c : Channel}
    (h : Delivers table g g' d c) : Balances g' table.count c ↔ g'.UnitRate c.target.port := by
  obtain ⟨rate, hrate, hdeliver⟩ := h.rate
  rw [← h.source_eq, ← h.target_eq] at hdeliver
  have hpower := Monomial.beq_iff.mp hdeliver
  constructor
  · rintro ⟨produced, consumed, hproduced, hconsumed, heq⟩
    obtain rfl : rate = produced := Except.ok.inj (hrate.symm.trans hproduced)
    refine ⟨consumed, hconsumed, Monomial.isOne_iff.mpr fun key => ?_⟩
    have hkey := Monomial.beq_iff.mp heq key
    have hpower := hpower key
    rw [Monomial.power_mul] at hkey hpower
    rw [Monomial.power_mul] at hkey
    omega
  · rintro ⟨consumed, hconsumed, hone⟩
    refine ⟨rate, consumed, hrate, hconsumed, Monomial.beq_iff.mpr fun key => ?_⟩
    have hzero := Monomial.isOne_iff.mp hone key
    have hpower := hpower key
    rw [Monomial.power_mul] at hpower
    rw [Monomial.power_mul, Monomial.power_mul]
    omega

namespace Run.Checked

variable {origin : Graph} {table : Repetitions} {run : Run} {g : Graph} {deliveries : List Delivery}
  {created : List Channel} {c : Channel}

/-- What was in the graph before the wiring is as balanced as it was. -/
theorem balances_of_mem (h : run.Checked origin table)
    (hwires : Wires table run.graph g deliveries created) (hc : c ∈ run.graph.channels) :
    Balances g table.count c :=
  (h.prepared.solved.balances c hc).mono hwires.grows

/-- A port under the name of a delivery was in the graph from the beginning, or its rate is one. -/
theorem mem_or_unitRate (h : run.Checked origin table)
    (hwires : Wires table run.graph g deliveries created) {p : Port} {parameter : String}
    (hp : p ∈ g.ports) (hdirection : p.direction = .input) (hname : p.name = s!"_{parameter}_in") :
    p ∈ origin.ports ∨ g.UnitRate p := by
  obtain hold | houtput | hrate := hwires.ports_new p hp
  · obtain horigin | hin | ⟨other, hout⟩ := h.prepared.ports_new p hold
    · exact .inl horigin
    · exact absurd (hname.symm.trans hin) (input_name_ne parameter)
    · exact absurd (hname.symm.trans hout) (input_name_ne_output parameter other)
  · rw [hdirection] at houtput
    cases houtput
  · exact .inr (Graph.unitRate_of_text hrate)

private theorem balances_of_not_reuses (h : run.Checked origin table)
    (hwires : Wires table run.graph g deliveries created)
    (hsources : ∀ d ∈ deliveries, run.protocol.source? d.parameter = some d.source)
    (hc : c ∈ g.channels) (hnot : ¬ Reuses origin run.protocol c) : Balances g table.count c := by
  by_cases hold : c ∈ run.graph.channels
  · exact h.balances_of_mem hwires hold
  · rw [hwires.channels_eq, List.mem_append] at hc
    obtain ⟨d, hd, hdelivers⟩ := exists_of_mem_right hwires.delivers (hc.resolve_left hold)
    have hc : c ∈ g.channels := hwires.channels_eq ▸ List.mem_append.mpr hc
    have hfits := hwires.wellFormed.joins c hc .input
    obtain hhad | hunit :=
      h.mem_or_unitRate hwires hfits.port_mem hfits.direction_eq hdelivers.input_name
    · refine absurd ⟨fun horigin => hold ?_, hhad, d.parameter, ?_, hdelivers.input_name⟩ hnot
      · exact h.prepared.grown.2.channels.subset horigin
      · rw [hdelivers.source_eq]
        exact hsources d hd
    · exact hdelivers.balances_iff.mpr hunit

private theorem balances_iff_of_reuses (h : run.Checked origin table)
    (hwires : Wires table run.graph g deliveries created) (hc : c ∈ g.channels)
    (hreuses : Reuses origin run.protocol c) :
    Balances g table.count c ↔ g.UnitRate c.target.port := by
  rw [hwires.channels_eq, List.mem_append] at hc
  obtain hold | hnew := hc
  · obtain ⟨parameter, -, hname⟩ := hreuses.delivers
    obtain horigin | hin := h.prepared.channels_new c hold
    · exact absurd horigin hreuses.added
    · exact absurd (hname.symm.trans hin) (input_name_ne parameter)
  · obtain ⟨d, -, hdelivers⟩ := exists_of_mem_right hwires.delivers hnew
    exact hdelivers.balances_iff

end Run.Checked

/-- How the run that has carried out all passes stands to the one that arrived at the wiring. -/
structure Run.Finished (origin : Graph) (table : Repetitions) (run final : Run) : Prop where
  checked : run.Checked origin table
  table_eq : final.table = some table
  sources_eq : final.protocol.sources = run.protocol.sources
  wires : ∃ deliveries created, Wires table run.graph final.graph deliveries created ∧
    ∀ d ∈ deliveries, run.protocol.source? d.parameter = some d.source

private theorem Run.Checked.finished {origin : Graph} {table : Repetitions} {run next : Run}
    (h : run.Checked origin table) (hwiring : Pass.wiring.run run = .ok () next) :
    Run.Finished origin table run next := by
  have htable : run.table = some table := h.prepared.table_eq
  rw [Pass.wiring_run] at hwiring
  obtain ⟨-, journal, heq⟩ | ⟨found, -, -, hfound, heq⟩ :=
    Pass.wireIf_cases run.config.connectUsers run.safe run.table run
  · rw [heq] at hwiring
    cases hwiring
    exact ⟨h, htable, rfl, [], [], .refl h.prepared.grown.1, by simp⟩
  · obtain rfl : table = found := Option.some.inj (htable.symm.trans hfound)
    rw [heq] at hwiring
    obtain ⟨created, w, journal, hconnect, rfl⟩ := Pass.wire_eq_ok hwiring
    obtain ⟨hwires, hprotocol⟩ := h.wires hconnect
    have hsources : w.protocol.sources = run.protocol.sources := by rw [hprotocol]
    exact ⟨h, htable, hsources, run.protocol.due, created, hwires,
      fun _ => Protocol.source?_of_mem_due⟩

namespace Analyzer

/-- An analysis that arrives at the wiring without errors has a table. -/
theorem exists_table {origin : Graph} {config : Config} {run : Run}
    (h : arrive origin config .wiring = some run) (hclean : run.hasErrors = false) :
    ∃ table, run.table = some table := by
  obtain ⟨atSafety, afterSafety, hsafety, hcheck, rfl⟩ := Pass.arrive_step
    [.periodActors, .structural, .rates, .sources, .balance, .users]
    (by decide) (by decide) (by decide) h
  obtain ⟨-, rfl⟩ | ⟨table, _, _, htable, -, hresult⟩ := Pass.safety_eq_ok hcheck
  · obtain ⟨atUsers, afterUsers, husers, hidentify, rfl⟩ := Pass.arrive_step
      [.periodActors, .structural, .rates, .sources, .balance]
      (by decide) (by decide) (by decide) hsafety
    obtain ⟨-, rfl⟩ | ⟨table, _, htable, -, rfl⟩ := Pass.users_eq_ok hidentify
    · obtain ⟨atBalance, afterBalance, -, hsolve, rfl⟩ := Pass.arrive_step
        [.periodActors, .structural, .rates, .sources] (by decide) (by decide) (by decide) husers
      obtain ⟨_, _, _, -, -, hresult⟩ := Pass.balance_eq_ok hsolve
      obtain ⟨table, -, rfl⟩ | ⟨_, d, -, hd, rfl⟩ := hresult
      · exact ⟨table, rfl⟩
      · simp [Run.hasErrors, Run.noted, hd.isError] at hclean
    · exact ⟨table, htable⟩
  · obtain ⟨-, rfl⟩ | ⟨_, _, -, -, rfl⟩ := hresult <;> exact ⟨table, htable⟩

/-- Passes that end without errors have carried out the wiring, and left the graph as it was then. -/
theorem finished_of_runAll {origin : Graph} {config : Config} {final : Run}
    (hg : origin.WellFormed)
    (hall : Pass.runAll Pass.all (opening origin config) = .ok () final)
    (hclean : final.hasErrors = false) : ∃ run table, Run.Finished origin table run final := by
  obtain ⟨run, hwiring, hcleanWiring⟩ :=
    Pass.exists_arrive hall hclean (by decide : Pass.wiring ∈ Pass.all)
  obtain ⟨reached, hliveness, -⟩ :=
    Pass.exists_arrive hall hclean (by decide : Pass.liveness ∈ Pass.all)
  obtain ⟨table, htable⟩ := exists_table hwiring hcleanWiring
  have hchecked := checked_of_arrive hg hwiring htable
  obtain ⟨previous, next, hprevious, hwire, rfl⟩ := Pass.arrive_step
    [.periodActors, .structural, .rates, .sources, .balance, .users, .safety]
    (by decide) (by decide) (by decide) hliveness
  obtain rfl : run = previous := Option.some.inj (hwiring.symm.trans hprevious)
  obtain ⟨hchecked, hnext, hsources, hwires⟩ := hchecked.finished hwire
  obtain ⟨later, hsuffix, hresume⟩ := Pass.runAll_of_arrive hliveness
  obtain rfl : later = [] := by simpa [Pass.all, List.suffix_cons_iff] using hsuffix
  rw [hresume, ← Pass.runAll_cons] at hall
  obtain ⟨last, hlook, hend⟩ := Pass.runAll_cons_eq_ok hall
  obtain ⟨journal, rfl⟩ := Pass.liveness_eq_ok hlook
  refine ⟨run, table, ?_⟩
  obtain ⟨-, _, _, rfl⟩ | ⟨-, hnil⟩ := hend
  · exact ⟨hchecked, hnext, hsources, hwires⟩
  · cases hnil
    exact ⟨hchecked, hnext, hsources, hwires⟩

/-- What a successful analysis reports is what its passes have found. -/
theorem exists_finished {s s' : AnalyzerState} {report : Report} (hs : s.graph.Reachable)
    (hrun : Analyzer.run s = .ok report s') (hsuccess : report.success = true) :
    ∃ run table final, Run.Finished s.graph table run final ∧ report = final.report ∧
      s'.graph = final.graph := by
  obtain ⟨final, hall, rfl, hgraph, -⟩ := run_eq_ok hrun
  have hclean : final.hasErrors = false := by simpa [Run.report] using hsuccess
  obtain ⟨run, table, hfinished⟩ := finished_of_runAll hs.wellFormed hall hclean
  exact ⟨run, table, final, hfinished, rfl, hgraph⟩

end Analyzer

namespace Run.Finished

variable {origin : Graph} {table : Repetitions} {run final : Run} {c : Channel}

private theorem wellFormed (h : Run.Finished origin table run final) : final.graph.WellFormed := by
  obtain ⟨deliveries, created, hwires, -⟩ := h.wires
  exact hwires.wellFormed

theorem actors_eq (h : Run.Finished origin table run final) :
    final.graph.actors = run.graph.actors := by
  obtain ⟨deliveries, created, hwires, -⟩ := h.wires
  exact hwires.actors_eq

private theorem balances_of_not_reuses (h : Run.Finished origin table run final)
    (hc : c ∈ final.graph.channels) (hnot : ¬ Reuses origin final.protocol c) :
    Balances final.graph table.count c := by
  obtain ⟨deliveries, created, hwires, hsources⟩ := h.wires
  exact h.checked.balances_of_not_reuses hwires hsources hc
    fun hreuses => hnot (hreuses.congr h.sources_eq)

private theorem balances_iff_of_reuses (h : Run.Finished origin table run final)
    (hc : c ∈ final.graph.channels) (hreuses : Reuses origin final.protocol c) :
    Balances final.graph table.count c ↔ final.graph.UnitRate c.target.port := by
  obtain ⟨deliveries, created, hwires, -⟩ := h.wires
  exact h.checked.balances_iff_of_reuses hwires hc (hreuses.congr h.sources_eq.symm)

/-- The equations of the graph that is left have the solution that was found before the wiring. -/
theorem solve_again (h : Run.Finished origin table run final)
    (hcount : ∀ c ∈ final.graph.channels, Balances final.graph table.count c)
    {start : Option Actor} (hstart : ∀ a ∈ start, a ∈ final.graph.actors) {w : Workspace}
    (hw : w.graph = final.graph) (hrates : w.rates = .empty) :
    ∃ table' w', Workspace.solve start w = .ok (.success table') w' ∧
      table'.entries.map Prod.fst = table.entries.map Prod.fst ∧
      ∀ a ∈ final.graph.actors, (table'.count a == table.count a) = true := by
  obtain ⟨deliveries, created, hwires, -⟩ := h.wires
  rw [← hw] at hwires hcount hstart ⊢
  rw [hwires.actors_eq]
  exact Workspace.solve_again h.checked.prepared.grown.1 hwires.wellFormed (hrates ▸ .empty _)
    hwires.grows hwires.actors_eq h.checked.prepared.found h.checked.prepared.written hcount hstart

/-- A table with the same counts that `Workspace.solve` returns balances every channel. -/
theorem balances_of_solve (h : Run.Finished origin table run final) {table' : Repetitions}
    {w' : Workspace}
    (hsolve : Workspace.solve none ⟨final.graph, .empty, .empty, []⟩ = .ok (.success table') w')
    (hsame : ∀ a ∈ final.graph.actors, (table'.count a == table.count a) = true)
    (hc : c ∈ final.graph.channels) : Balances final.graph table.count c := by
  have hg := h.wellFormed
  obtain ⟨cache, hbalance⟩ := Workspace.solve_eq_ok hsolve
  have hfound : Found final.graph table' := ⟨none, .empty, cache, by simp, .empty _, hbalance⟩
  exact ((hfound.solved hg).balances c hc).congr (hsame _ (hg.joins c hc .output).actor_mem)
    (hsame _ (hg.joins c hc .input).actor_mem)

end Run.Finished

namespace Balance

/-- After a successful `Analyzer.run` the reported table has a count for each actor of the graph,
and these counts balance every channel other than the deliveries into ports that the graph had
before. Such a delivery is balanced if and only if the rate of its port is one. When all of them
are, and only then, `Workspace.solve` on that graph, with no rate parsed yet and from any actor, has
the same solution. -/
theorem run_stays_balanced {s s' : AnalyzerState} {report : Report} (hs : s.graph.Reachable)
    (hrun : Analyzer.run s = .ok report s') (hsuccess : report.success = true) :
    ∃ table, report.table = some table ∧
      table.entries.map Prod.fst = s'.graph.actors.map (·.id) ∧
      (∀ a ∈ s'.graph.actors, table.get a = .ok (table.count a)) ∧
      (∀ c ∈ s'.graph.channels, ¬ Reuses s.graph report.protocol c →
        Balances s'.graph table.count c) ∧
      (∀ c ∈ s'.graph.channels, Reuses s.graph report.protocol c →
        (Balances s'.graph table.count c ↔ s'.graph.UnitRate c.target.port)) ∧
      ((∀ c ∈ s'.graph.channels, Reuses s.graph report.protocol c →
          s'.graph.UnitRate c.target.port) ↔
        ∀ start : Option Actor, (∀ a ∈ start, a ∈ s'.graph.actors) →
          ∀ w : Workspace, w.graph = s'.graph → w.rates = .empty →
            ∃ table' w', Workspace.solve start w = .ok (.success table') w' ∧
              table'.entries.map Prod.fst = table.entries.map Prod.fst ∧
              ∀ a ∈ s'.graph.actors, (table'.count a == table.count a) = true) := by
  obtain ⟨run, table, final, h, rfl, hgraph⟩ := Analyzer.exists_finished hs hrun hsuccess
  have hsolved := h.checked.prepared.solved
  rw [hgraph]
  refine ⟨table, h.table_eq, ?_, ?_, fun c => h.balances_of_not_reuses,
    fun c => h.balances_iff_of_reuses, ?_, ?_⟩
  · rw [h.actors_eq]
    exact hsolved.keys_eq
  · rw [h.actors_eq]
    exact hsolved.get_eq
  · intro hunit start hstart w hw hrates
    refine h.solve_again (fun c hc => ?_) hstart hw hrates
    by_cases hreuses : Reuses s.graph final.protocol c
    · exact (h.balances_iff_of_reuses hc hreuses).mpr (hunit c hc hreuses)
    · exact h.balances_of_not_reuses hc hreuses
  · intro hagain c hc hreuses
    obtain ⟨table', w', hsolve, -, hsame⟩ :=
      hagain none (by simp) ⟨final.graph, .empty, .empty, []⟩ rfl rfl
    exact (h.balances_iff_of_reuses hc hreuses).mp (h.balances_of_solve hsolve hsame hc)

/-- A producer that sets a parameter, and a consumer whose type has a port under the name of the
delivery already, with the given rate. -/
def reused (rate : String) : Graph :=
  Graph.performAll (.empty none)
    [ .addActor "a" "A" 0 false, .addActor "b" "B" 0 false, .addPort "A" "out" .output (some "p"),
      .addPort "B" "in" .input (some "1"), .addPort "B" "_p_in" .input (some rate),
      .addChannel ("a", "out") ("b", "in") {},
      .addModifier { type := "A", parameter := "p", kind := "int", period := "1" } ]

/-- Whether a graph is analyzed with success, and what holds of the graph that is left with the
table that is reported. -/
def succeeds (g : Graph) (p : Graph → Repetitions → Bool) : Bool :=
  match Analyzer.run ⟨.new {}, g, []⟩ with
  | .ok report s => report.success && report.table.any (p s.graph)
  | .error _ _ => false

private theorem exists_run_of_succeeds {g : Graph} {p : Graph → Repetitions → Bool}
    (h : succeeds g p = true) : ∃ report s' table, Analyzer.run ⟨.new {}, g, []⟩ = .ok report s' ∧
      report.success = true ∧ report.table = some table ∧ p s'.graph table = true := by
  unfold succeeds at h
  split at h
  · rename_i report s' hrun
    rw [Bool.and_eq_true, Option.any_eq_true] at h
    obtain ⟨hsuccess, table, htable, hp⟩ := h
    exact ⟨report, s', table, hrun, hsuccess, htable, hp⟩
  · cases h

theorem run_stays_balanced_reused :
    (reused "1").Reachable ∧ ∃ report s' table,
      Analyzer.run ⟨.new {}, reused "1", []⟩ = .ok report s' ∧ report.success = true ∧
      report.table = some table ∧ s'.graph.channels.length = 3 ∧
      ∀ c ∈ s'.graph.channels, ¬ Reuses (reused "1") report.protocol c →
        Balances s'.graph table.count c := by
  have hg : (reused "1").Reachable := (Graph.Reachable.empty none).performAll _
  have hthree : succeeds (reused "1") (fun g _ => g.channels.length == 3) = true := by
    decide +kernel
  obtain ⟨report, s', table, hrun, hsuccess, htable, hlength⟩ := exists_run_of_succeeds hthree
  obtain ⟨found, hfound, -, -, hbalances, -, -⟩ := run_stays_balanced hg hrun hsuccess
  obtain rfl : table = found := Option.some.inj (htable.symm.trans hfound)
  exact ⟨hg, report, s', table, hrun, hsuccess, htable, eq_of_beq hlength, hbalances⟩

/-- In `reused`, a port that takes two values at a time stands where a parameter is delivered. The
delivery is not balanced, and the graph that the analysis leaves has no solution. -/
theorem reused_port_unbalances :
    (reused "2").Reachable ∧ ∃ report s' table,
      Analyzer.run ⟨.new {}, reused "2", []⟩ = .ok report s' ∧ report.success = true ∧
      report.table = some table ∧ (∃ c ∈ s'.graph.channels, ¬ Balances s'.graph table.count c) ∧
      ∃ evidence w', Workspace.solve none ⟨s'.graph, .empty, .empty, []⟩ =
        .ok (.violated evidence) w' := by
  have hviolated : succeeds (reused "2") (fun g table =>
      (g.channels.any fun c => !decide (Balances g table.count c)) &&
        (Workspace.verdict? ⟨g, .empty, .empty, []⟩ none).any (!·.isSuccess)) = true := by
    decide +kernel
  obtain ⟨report, s', table, hrun, hsuccess, htable, hboth⟩ := exists_run_of_succeeds hviolated
  obtain ⟨hchannel, hverdict⟩ := Bool.and_eq_true_iff.mp hboth
  obtain ⟨verdict, w', hsolve, hfailed⟩ := Workspace.exists_of_verdict? hverdict
  refine ⟨(Graph.Reachable.empty none).performAll _, report, s', table, hrun, hsuccess, htable, ?_,
    ?_⟩
  · simpa using hchannel
  · cases verdict with
    | success _ => cases hfailed
    | violated evidence => exact ⟨evidence, w', hsolve⟩

end Balance

end Dataflow
